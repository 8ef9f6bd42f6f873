import StaticSite.Text.Case
import StaticSite.Url.Host

/-!
# URLs

`Url.ofString?` splits a text into scheme, authority, path, query and fragment; `Url.text` puts them
together again and drops empty parts. `Url.encode` escapes the path and the query values between
the two.
-/

namespace StaticSite

structure Url where
  scheme : List Char
  authority : List Char
  path : List Char
  query : List Char
  fragment : List Char
  deriving DecidableEq, Repr

namespace Url

/-- Schemes whose URLs have an authority, if an empty one. -/
def authoritySchemes : List String := [
  "file", "ftp", "git", "git+ssh", "gopher", "http", "https", "imap", "mms", "nfs", "nntp",
  "prospero", "rsync", "rtsp", "rtsps", "rtspu", "sftp", "shttp", "snews", "svn", "svn+ssh",
  "telnet", "wais", "ws", "wss"]

def isSchemeChar (c : Char) : Bool :=
  isAsciiAlpha c || isAsciiDigit c || c == '+' || c == '-' || c == '.'

/-- The text without leading controls and spaces, and without tabs and line ends. -/
def cleaned (cs : List Char) : List Char :=
  (cs.dropWhile fun c => c.toNat ≤ 32).filter fun c => c ≠ '\t' ∧ c ≠ '\r' ∧ c ≠ '\n'

/-- The scheme in lower case and what follows it. -/
def cutScheme (cs : List Char) : List Char × List Char :=
  match Text.cut ':' cs with
  | (scheme, some rest) =>
    if (scheme.head?.any isAsciiAlpha) && scheme.all isSchemeChar then
      (scheme.map Text.asciiLower, rest)
    else ([], cs)
  | (_, none) => ([], cs)

def endsAuthority (c : Char) : Bool := c == '/' || c == '?' || c == '#'

/-- The authority after two slashes and what follows it. -/
def cutAuthority : List Char → List Char × List Char
  | '/' :: '/' :: rest => rest.span (!endsAuthority ·)
  | cs => ([], cs)

def checkBrackets (authority : List Char) : Except Fault Unit :=
  if '[' ∈ authority ∧ ']' ∈ authority then checkBracketed authority
  else if '[' ∈ authority ∨ ']' ∈ authority then .error .brackets
  else .ok ()

def ofChars? (cs : List Char) : Except Fault Url := do
  let (scheme, rest) := cutScheme (cleaned cs)
  let (authority, rest) := cutAuthority rest
  checkBrackets authority
  let (rest, fragment) := Text.cut '#' rest
  let (path, query) := Text.cut '?' rest
  checkAuthority authority
  return ⟨scheme, authority, path, query.getD [], fragment.getD []⟩

def startsTwoSlashes : List Char → Bool
  | '/' :: '/' :: _ => true
  | _ => false

/-- The authority and the path; the path begins with a slash where an authority stands. -/
def hierarchy (u : Url) : List Char :=
  if u.authority ≠ [] ∨ (String.ofList u.scheme ∈ authoritySchemes ∧ !startsTwoSlashes u.path) then
    '/' :: '/' :: u.authority ++
      (if u.path = [] ∨ u.path.head? = some '/' then u.path else '/' :: u.path)
  else u.path

def text (u : Url) : List Char :=
  (if u.scheme = [] then [] else u.scheme ++ [':']) ++ u.hierarchy ++
    (if u.query = [] then [] else '?' :: u.query) ++
    (if u.fragment = [] then [] else '#' :: u.fragment)

def escaped (u : Url) : Url :=
  { u with path := escapePath u.path, query := escapeQuery u.query }

/-- A URL with path and query values escaped. -/
def encode (s : String) : Except Fault String := do
  return String.ofList (← ofChars? s.toList).escaped.text

end Url

end StaticSite
