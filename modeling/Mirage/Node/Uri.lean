import Mirage.Lib.Cut
import Mirage.Lib.NumberText
import Mirage.Tunnel.Cipher

/-!
`mirage://` links of nodes: the parser of node_uri.rs and the builder of
bin/mirage/config_edit.rs. Password and SNI stand percent-encoded in the link,
the host as it is.
-/

namespace Mirage.Node
open Word Text Cut NumberText
open Tunnel (trim)

/-- What a link is refused with: a text of the parser, or what the UTF-8 check
of the standard library says. -/
inductive UriError where
  | said (message : String)
  | utf8
  deriving DecidableEq

structure NodeUri where
  password : String
  host : String
  port : UInt16
  sni : String
  deriving DecidableEq

section Percent

def hexDigit (b : UInt8) : Option UInt8 :=
  if 0x30 ≤ b ∧ b ≤ 0x39 then some (b - 0x30)
  else if 0x41 ≤ b ∧ b ≤ 0x46 then some (b - 0x37)
  else if 0x61 ≤ b ∧ b ≤ 0x66 then some (b - 0x57)
  else none

/-- `u8::from_str_radix` of two bytes at base 16, which takes a plus sign. -/
def fromStrRadix16 (first second : UInt8) : Option UInt8 :=
  if first = 0x2B then hexDigit second
  else (hexDigit first).bind fun high => (hexDigit second).map fun low => high * 16 + low

/-- The loop of `percent_decode` over the bytes. -/
def percentDecodeBytes : Bytes → Except UriError Bytes
  | [] => .ok []
  | b :: rest =>
      if b = 0x25 then
        match rest with
        | first :: second :: rest =>
            match fromUtf8 [first, second] with
            | none => .error .utf8
            | some hex =>
                match fromStrRadix16 first second with
                | none => .error (.said ("invalid percent-encoding: %" ++ hex))
                | some v => (percentDecodeBytes rest).map (v :: ·)
        | short =>
            -- At most one byte is left, and a single byte is ASCII.
            .error (.said ("incomplete percent-encoding: ...%" ++
              String.ofList (short.map fun b => Char.ofNat b.toNat)))
      else (percentDecodeBytes rest).map (b :: ·)

def percentDecode (s : List Char) : Except UriError String :=
  match percentDecodeBytes (utf8 (String.ofList s)) with
  | .error e => .error e
  | .ok out =>
      match fromUtf8 out with
      | some text => .ok text
      | none => .error .utf8

def isUnreserved (b : UInt8) : Bool :=
  (0x61 ≤ b && b ≤ 0x7A) || (0x41 ≤ b && b ≤ 0x5A) || (0x30 ≤ b && b ≤ 0x39) ||
    b = 0x2D || b = 0x5F || b = 0x2E || b = 0x7E

def upperHex (n : UInt8) : Char := Char.ofNat (if n < 10 then 0x30 + n else 0x37 + n).toNat

def urlEncodeByte (b : UInt8) : List Char :=
  if isUnreserved b then [Char.ofNat b.toNat] else ['%', upperHex (b / 16), upperHex (b % 16)]

def urlEncode (s : String) : List Char := (utf8 s).flatMap urlEncodeByte

end Percent

def schemePrefix : List Char := "mirage://".toList

def buildMirageNodeUri (host : String) (port : UInt16) (password camouflageHost : String) :
    String :=
  let hostPart :=
    if ':' ∈ host.toList ∧ host.toList.head? ≠ some '[' then '[' :: host.toList ++ [']']
    else host.toList
  String.ofList (schemePrefix ++ (urlEncode password ++ '@' :: (hostPart ++ ':' ::
    (port.toNat.repr.toList ++ '?' :: ("sni=".toList ++ urlEncode camouflageHost)))))

section Parse

def fail {Value : Type} (message : String) : Except UriError Value := .error (.said message)

def splitHostPort (hostport : List Char) : Except UriError (List Char × List Char) :=
  match hostport with
  | '[' :: rest6 =>
      match splitOnceAt "]:".toList rest6 with
      | some parts => .ok parts
      | none => fail "IPv6 literal format should be [addr]:port"
  | _ =>
      match rsplitOnce ':' hostport with
      | some parts => .ok parts
      | none => fail "missing port (format: host:port)"

def parsePort (portStr : List Char) : Except UriError UInt16 :=
  match parseUnsigned (2 ^ 16) (String.ofList portStr) with
  | none => fail ("invalid port: " ++ "`" ++ String.ofList portStr ++ "`")
  | some port => if port = 0 then fail "port cannot be 0" else .ok (UInt16.ofNat port)

/-- One pair of the query; the last `sni` counts. -/
def readPair (sni : String) (pair : List Char) : Except UriError String :=
  match splitOnce '=' pair with
  | some (k, v) => if k = "sni".toList then percentDecode v else .ok sni
  | none => .ok sni

def readSni (query : List Char) : Except UriError String :=
  ((query.splitOn '&').filter (· ≠ [])).foldlM readPair ""

/-- The parts of a link put together, in the order of the source's checks. -/
def assemble (pwdEnc host portStr query : List Char) : Except UriError NodeUri := do
  let port ← parsePort portStr
  let sni ← readSni query
  let password ← percentDecode pwdEnc
  if password = "" then fail "password is empty"
  else if host = [] then fail "host is empty"
  else if sni = "" then fail "missing sni parameter (camouflage domain, must match server)"
  else .ok ⟨password, String.ofList host, port, sni⟩

def NodeUri.parse (uri : String) : Except UriError NodeUri :=
  match stripPrefix schemePrefix (trim uri.toList) with
  | none => fail "node URI does not start with mirage://"
  | some rest =>
      match rsplitOnce '@' rest with
      | none => fail "missing '@' separator (format: mirage://password@host:port?sni=...)"
      | some (pwdEnc, hostportQuery) =>
          let (hostport, query) := (splitOnce '?' hostportQuery).getD (hostportQuery, [])
          match splitHostPort hostport with
          | .error e => .error e
          | .ok (host, portStr) => assemble pwdEnc host portStr query

end Parse

example : NodeUri.parse "mirage://p%40ss%3Aw%2Frd@[2001:db8::1]:8443?sni=a%2Db.com" =
    .ok ⟨"p@ss:w/rd", "2001:db8::1", 8443, "a-b.com"⟩ := by decide +kernel

end Mirage.Node
