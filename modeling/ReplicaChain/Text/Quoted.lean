import ReplicaChain.Text.Invisible
import ReplicaChain.Text.Number

/-!
# Quoted text

Diagnostics show text between double quotes.  Quotes, backslashes and the common control characters
are escaped with a backslash, and every other character that does not show by itself is written as
its code point.
-/

namespace ReplicaChain.Text

def codePointEscape (c : Char) : List Char :=
  "\\u\x7b".toList ++ Nat.toDigits 16 c.toNat ++ ['\x7d']

def quotedChar (c : Char) : List Char :=
  if c = '"' then ['\\', '"']
  else if c = '\\' then ['\\', '\\']
  else if c = '\n' then ['\\', 'n']
  else if c = '\r' then ['\\', 'r']
  else if c = '\t' then ['\\', 't']
  else if c = '\x00' then ['\\', '0']
  else if isInvisible c then codePointEscape c
  else [c]

def quoted (s : String) : String :=
  String.ofList ('"' :: (s.toList.flatMap quotedChar ++ ['"']))

end ReplicaChain.Text
