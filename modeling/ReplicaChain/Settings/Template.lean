import ReplicaChain.Settings.Basic

/-!
# Settings templates

A template is a commented TOML file that shows every setting.  Its second line tells how it was made
and names the file as it was given.
-/

namespace ReplicaChain.Settings

def templateLines (path : String) (s : Settings) : List String :=
  ["# Data-node configuration",
    "# Generated by: datanode --gen-config " ++ path,
    "#",
    "# All values shown are defaults.",
    "",
    "# Prefix of the per-opcode latency timer keys",
    "cluster_id = \"" ++ s.cluster ++ "\"",
    "",
    "# Address for client and replica connections",
    "listen_addr = \"" ++ s.listen.text ++ "\"",
    "",
    "# Read deadlines in seconds; 0 waits indefinitely",
    "client_read_timeout_secs = " ++ Text.decimal s.clientTimeout.toNat,
    "follower_read_timeout_secs = " ++ Text.decimal s.followerTimeout.toNat,
    "",
    "[pool]",
    "# Idle connections kept per follower address",
    "idle_per_addr = " ++ Text.decimal s.links.idlePerAddress.toNat,
    "# Hard limit on live follower connections",
    "max_connections = " ++ Text.decimal s.links.maxLinks.toNat,
    "connect_timeout_ms = " ++ Text.decimal s.links.connectTimeoutMs.toNat,
    "",
    "[buffers]",
    "# Pre-allocated header and full-block buffers",
    "header_pool_size = " ++ Text.decimal s.buffers.headers.toNat,
    "block_pool_size = " ++ Text.decimal s.buffers.blocks.toNat,
    "",
    "[metrics]",
    "enabled = " ++ (if s.latency.enabled then "true" else "false"),
    "# Timer samples beyond this backlog are dropped",
    "channel_capacity = " ++ Text.decimal s.latency.backlog.toNat,
    "",
    "[store]",
    "capacity_bytes = " ++ Text.decimal s.store.capacity.toNat]

def template (path : String) : String :=
  String.join ((templateLines path {}).map (· ++ "\n"))

end ReplicaChain.Settings
