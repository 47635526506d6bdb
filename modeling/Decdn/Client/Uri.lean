import Decdn.Foundations.Fallible
import Decdn.Foundations.Texts
import Mathlib

/-!
# `decdn:` URIs

The parser and the printer of `crates/client/src/uri.rs`.  A text is a list of characters, and the
functions that scan bytes do so here.  Decoding the hexadecimal text of a hash is the hash
library's.

Main definitions:

- Definition `fromStr`: the parser, with its errors.
- Definition `display`: the printer.
-/

namespace Decdn.Client.Uri

def scheme : List Char := "decdn:".toList

/-- What the hash of a URI names. -/
inductive UriTarget where
  | blob
  | bundle
  | bundleEntry (path : String)
deriving DecidableEq

/-- A parsed URI. -/
structure DecdnUri where
  hash : Vector UInt8 32
  target : UriTarget
  namespaceId : Option UInt64
deriving DecidableEq

inductive UriError where
  | missingScheme
  | authority
  | hash (why : String)
  | path (why : String)
  | namespaceId (why : String)
  | query (why : String)
deriving DecidableEq

/-! ## The parser -/

def byteOf (c : Char) : UInt8 := c.toUInt8

/-- `u8::is_ascii_hexdigit`. -/
def isAsciiHexdigit (b : UInt8) : Bool :=
  (byteOf '0' ≤ b && b ≤ byteOf '9') || (byteOf 'A' ≤ b && b ≤ byteOf 'F') ||
    (byteOf 'a' ≤ b && b ≤ byteOf 'f')

def isAsciiDigit (b : UInt8) : Bool := byteOf '0' ≤ b && b ≤ byteOf '9'

def isAsciiAlphanumeric (b : UInt8) : Bool :=
  isAsciiDigit b || (byteOf 'A' ≤ b && b ≤ byteOf 'Z') || (byteOf 'a' ≤ b && b ≤ byteOf 'z')

/-- `hex_value`. -/
def hexValue (b : UInt8) : Option UInt8 :=
  if byteOf '0' ≤ b ∧ b ≤ byteOf '9' then some (b - 48)
  else if byteOf 'a' ≤ b ∧ b ≤ byteOf 'f' then some (b - 87)
  else if byteOf 'A' ≤ b ∧ b ≤ byteOf 'F' then some (b - 55)
  else none

/-- `is_pchar`. -/
def isPchar (b : UInt8) : Bool :=
  isAsciiAlphanumeric b ||
    ['-', '.', '_', '~', '!', '$', '&', '\x27', '(', ')', '*', '+', ',', ';', '=', ':',
      '@'].any fun c => byteOf c == b

/-- `parse_hash`, over the hash library's `from_hex`. -/
def parseHash (fromHex : List Char → Except String (Vector UInt8 32)) (hex : List Char) :
    Except UriError (Vector UInt8 32) :=
  if (bytes hex).length ≠ 64 then
    .error (.hash (toString (bytes hex).length ++ " characters"))
  else if !(bytes hex).all isAsciiHexdigit then .error (.hash "not hex")
  else
    match fromHex (hex.map Char.toLower) with
    | .ok h => .ok h
    | .error e => .error (.hash e)

/-- `{:?}` of a character below 256. -/
def debugChar (c : Char) : String :=
  if c = '\x00' then "'\\0'"
  else if c = '\t' then "'\\t'"
  else if c = '\n' then "'\\n'"
  else if c = '\r' then "'\\r'"
  else if c = '\x27' then "'\\''"
  else if c = '\\' then "'\\\\'"
  else if c.toNat < 32 ∨ (127 ≤ c.toNat ∧ c.toNat < 161) ∨ c.toNat = 173 then
    "'\\u\x7b" ++ String.ofList (Nat.toDigits 16 c.toNat) ++ "\x7d'"
  else "'" ++ c.toString ++ "'"

/-- The loop of `decode_segment`. -/
def decodeLoop : List UInt8 → List UInt8 → Except UriError (List UInt8)
  | [], out => .ok out
  | b :: rest, out =>
    if b = byteOf '%' then
      match rest with
      | hi :: lo :: rest =>
        match hexValue hi, hexValue lo with
        | some hi, some lo => decodeLoop rest (out ++ [hi <<< 4 ||| lo])
        | _, _ => .error (.path "bad `%` escape")
      | _ => .error (.path "bad `%` escape")
    else if isPchar b then decodeLoop rest (out ++ [b])
    else .error (.path ("character " ++ debugChar (Char.ofUInt8 b) ++ " must be percent-encoded"))

/-- `decode_segment`. -/
def decodeSegment (segment : List Char) : Except UriError String := do
  let out ← decodeLoop (bytes segment) []
  match fromUtf8 out with
  | some text => .ok text
  | none => .error (.path "not UTF-8 once decoded")

/-- The body of the loop of `decode_path`. -/
def decodeEntry (segment : List Char) : Except UriError String := do
  let decoded ← decodeSegment segment
  if decoded.toList.isEmpty then
    .error (.path "empty segment (a leading, trailing or doubled `/` inside the path)")
  else if decoded = "." ∨ decoded = ".." then .error (.path ("`" ++ decoded ++ "` segment"))
  else if '/' ∈ decoded.toList then .error (.path "encoded `/` (`%2F`) in a segment")
  else if '\x00' ∈ decoded.toList then .error (.path "NUL byte")
  else .ok decoded

/-- `decode_path`. -/
def decodePath (raw : List Char) : Except UriError String := do
  let segments ← (raw.splitOn '/').mapM decodeEntry
  pure ("/".intercalate segments)

/-- `str::parse::<u64>` of digits. -/
def parseU64 (digits : List Char) : Option UInt64 :=
  let n := Nat.ofDigitChars 10 digits 0
  if n < 2 ^ 64 then some (UInt64.ofNat n) else none

/-- One turn of the loop of `parse_query`. -/
def parsePair (found : Option UInt64) (pair : List Char) : Except UriError (Option UInt64) :=
  match splitOnce '=' pair with
  | none => .error (.query ("`" ++ String.ofList pair ++ "` is not `key=value`"))
  | some (key, value) =>
    if key ≠ "ns".toList then .error (.query ("unknown key `" ++ String.ofList key ++ "`"))
    else if found.isSome then .error (.query "`ns` given twice")
    else if value.isEmpty || !(bytes value).all isAsciiDigit then
      .error (.namespaceId ("`" ++ String.ofList value ++ "` is not a decimal id"))
    else
      match parseU64 value with
      | none => .error (.namespaceId ("`" ++ String.ofList value ++ "` is out of range"))
      | some id => if id = 0 then .error (.namespaceId "0 means no namespace") else .ok (some id)

/-- `parse_query`. -/
def parseQuery (query : List Char) : Except UriError UInt64 := do
  let found ← (query.splitOn '&').foldlM parsePair none
  match found with
  | some id => .ok id
  | none => .error (.query "empty query")

/-- The target a path names. -/
def parseTarget : Option (List Char) → Except UriError UriTarget
  | none => .ok .blob
  | some [] => .ok .bundle
  | some path => do pure (.bundleEntry (← decodePath path))

/-- The namespace hint of an optional query. -/
def parseHint : Option (List Char) → Except UriError (Option UInt64)
  | none => pure none
  | some query => do pure (some (← parseQuery query))

/-- A text cut at the first separator; without one it is all before. -/
def cut (sep : Char) (text : List Char) : List Char × Option (List Char) :=
  match splitOnce sep text with
  | some (before, after) => (before, some after)
  | none => (text, none)

/-- `DecdnUri::from_str`. -/
def fromStr (fromHex : List Char → Except String (Vector UInt8 32)) (s : String) :
    Except UriError DecdnUri :=
  match s.toList.dropPrefix? scheme with
  | none => .error .missingScheme
  | some rest =>
    if "//".toList.isPrefixOf rest then .error .authority
    else do
      let (body, query) := cut '?' rest
      let (hash, path) := cut '/' body
      let hash ← parseHash fromHex hash
      let target ← parseTarget path
      let namespaceId ← parseHint query
      pure { hash := hash, target := target, namespaceId := namespaceId }

/-! ## The printer -/

/-- One byte of a printed segment. -/
def displayByte (b : UInt8) : List Char :=
  if isPchar b then [Char.ofUInt8 b] else '%' :: hexUpper b

def displaySegment (segment : List Char) : List Char := (bytes segment).flatMap displayByte

def displayTarget : UriTarget → List Char
  | .blob => []
  | .bundle => ['/']
  | .bundleEntry path =>
    (path.toList.splitOn '/').flatMap fun segment => '/' :: displaySegment segment

def displayNamespace : Option UInt64 → List Char
  | none => []
  | some id => "?ns=".toList ++ Nat.toDigits 10 id.toNat

/-- `Display` of a URI. -/
def display (u : DecdnUri) : String :=
  String.ofList (scheme ++ u.hash.toList.flatMap hexLower ++ displayTarget u.target ++
    displayNamespace u.namespaceId)

end Decdn.Client.Uri
