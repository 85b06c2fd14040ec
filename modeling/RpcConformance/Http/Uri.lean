import RpcConformance.Bytes
/-!
Request targets. A target is a path, perhaps with a query, after nothing, or after a scheme and an
authority; or it is an authority alone, or an asterisk.
-/
namespace RpcConformance.Http

structure Uri where
  scheme : Option String
  authority : String
  path : String
deriving DecidableEq, Repr

namespace Uri

/-- The letters, digits and marks that stand for themselves in every part of a target. -/
def isPlain (c : Char) : Bool := c.isAlphanum || "!$&'()*+,-.:;=@_~".toList.contains c

def isAuthorityChar (c : Char) : Bool := isPlain c || c == '[' || c == ']' || c == '%'

def isPathChar (c : Char) : Bool :=
  isPlain c || "/[]\\^|\"\x7b\x7d%".toList.contains c || '\x7f' ≤ c

def isQueryChar (c : Char) : Bool :=
  '!' ≤ c && c != '"' && c != '<' && c != '>'

def isSchemeChar (c : Char) : Bool := c.isAlphanum || c == '+' || c == '-' || c == '.'

def count (c : Char) (cs : List Char) : Nat := (cs.filter (· == c)).length

def afterLast (p : Char → Bool) (cs : List Char) : List Char := (cs.reverse.takeWhile (!p ·)).reverse

/-- Whether an authority is well formed: a host, in brackets if it has colons of its own, and
perhaps a port. Percent signs stand only in brackets or before an at sign. -/
def isAuthority (cs : List Char) : Bool :=
  let port := afterLast (fun c => c == '@' || c == ']') cs
  cs.all isAuthorityChar && cs.getLast? != some '@' &&
    count '[' cs ≤ 1 && count '[' cs == count ']' cs && !(cs.dropWhile (· != ']')).contains '[' &&
    count ':' port ≤ 1 && !port.contains '%'

/-- Whether a path is well formed, with what may follow it. -/
def isPathAndQuery (cs : List Char) : Bool :=
  let cs := cs.takeWhile (· != '#')
  let query := cs.dropWhile (· != '?')
  (cs.takeWhile (· != '?')).all isPathChar && query.all isQueryChar

def pathOf (cs : List Char) : String :=
  let path := cs.takeWhile fun c => c != '?' && c != '#'
  if path.isEmpty then "/" else String.ofList path

def splitScheme (cs : List Char) : Option (String × List Char) :=
  let scheme := cs.takeWhile isSchemeChar
  match cs.dropWhile isSchemeChar with
  | ':' :: '/' :: '/' :: rest => if scheme.isEmpty then none else some (String.ofList scheme, rest)
  | _ => none

def endsAuthority (c : Char) : Bool := c == '/' || c == '?' || c == '#'

def ofChars? (cs : List Char) : Option Uri :=
  match cs with
  | [] => none
  | ['*'] => some ⟨none, "", "*"⟩
  | '/' :: _ => if isPathAndQuery cs then some ⟨none, "", pathOf cs⟩ else none
  | _ =>
    match splitScheme cs with
    | some (scheme, rest) =>
      let authority := rest.takeWhile (!endsAuthority ·)
      let path := rest.dropWhile (!endsAuthority ·)
      if authority.isEmpty || !isAuthority authority || !isPathAndQuery path then none
      else some ⟨some scheme, String.ofList authority, pathOf path⟩
    | none => if isAuthority cs then some ⟨none, String.ofList cs, ""⟩ else none

def parse? (s : String) : Option Uri := if s.utf8ByteSize < 65535 then ofChars? s.toList else none

end Uri
end RpcConformance.Http
