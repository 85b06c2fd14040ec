import RpcConformance.Text.HiddenTable
/-!
Texts in double quotes, as reports and error messages show them: quotes, backslashes, the common
control characters and everything without a visible form are escaped.
-/
namespace RpcConformance.Text.Quoted

def isHidden (c : Char) : Bool := hiddenRuns.any fun run => run.1 ≤ c.toNat && c.toNat ≤ run.2

def encodeChar (c : Char) : List Char :=
  if c == '"' then ['\\', '"']
  else if c == '\\' then ['\\', '\\']
  else if c == '\t' then ['\\', 't']
  else if c == '\n' then ['\\', 'n']
  else if c == '\r' then ['\\', 'r']
  else if c == '\x00' then ['\\', '0']
  else if isHidden c then '\\' :: 'u' :: '\x7b' :: Nat.toDigits 16 c.toNat ++ ['\x7d']
  else [c]

def encode (s : String) : String := String.ofList ('"' :: s.toList.flatMap encodeChar ++ ['"'])

end RpcConformance.Text.Quoted
