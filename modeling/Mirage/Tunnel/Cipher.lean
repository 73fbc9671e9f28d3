import Mirage.Lib.Word

/-!
The tunnel ciphers of crypto/cipher.rs, the frames that negotiate them, and
padding schemes. A range of a scheme carries its own bounds, so every scheme
that `parse_padding_scheme` accepts is well formed by construction.
-/

namespace Mirage.Tunnel
open Word

inductive Cipher where
  | chaCha20Poly1305
  | aes256Gcm
  deriving DecidableEq, Repr

namespace Cipher

def toWire : Cipher → UInt8
  | chaCha20Poly1305 => 0x01
  | aes256Gcm => 0x02

def fromWire (b : UInt8) : Option Cipher :=
  if b = 0x01 then some chaCha20Poly1305 else if b = 0x02 then some aes256Gcm else none

/-- Separates the keys of the two ciphers; empty for the bootstrap cipher. -/
def hkdfSuffix : Cipher → Bytes
  | chaCha20Poly1305 => []
  | aes256Gcm => utf8 "-aes256gcm"

@[simp] theorem fromWire_toWire (cipher : Cipher) : fromWire cipher.toWire = some cipher := by
  cases cipher <;> rfl

end Cipher

def maxRecordSize : Nat := 16384

def tagSize : Nat := 16

section Padding

structure PadRange where
  lo : Nat
  hi : Nat
  positive : 1 ≤ lo
  ordered : lo ≤ hi
  fits : hi ≤ maxRecordSize
  deriving DecidableEq

structure PaddingScheme where
  ranges : List PadRange
  nonempty : ranges ≠ []
  deriving DecidableEq

/-- The characters `str::trim` removes. -/
def isWhitespace (c : Char) : Bool :=
  let n := c.toNat
  (0x09 ≤ n && n ≤ 0x0D) || n = 0x20 || n = 0x85 || n = 0xA0 || n = 0x1680 ||
    (0x2000 ≤ n && n ≤ 0x200A) || n = 0x2028 || n = 0x2029 || n = 0x202F || n = 0x205F ||
    n = 0x3000

def trim (s : List Char) : List Char :=
  ((s.dropWhile isWhitespace).reverse.dropWhile isWhitespace).reverse

/-- `str::parse::<usize>`: an optional plus sign and ASCII digits. -/
def parseUsize (s : List Char) : Option Nat :=
  let digits := match s with
    | '+' :: rest => rest
    | _ => s
  if digits.isEmpty || !digits.all Char.isDigit then none
  else
    let value := digits.foldl (fun n c => n * 10 + (c.toNat - '0'.toNat)) 0
    if maxU64 < value then none else some value

def splitOnce (separator : Char) (s : List Char) : Option (List Char × List Char) :=
  if s.contains separator then
    some (s.takeWhile (· ≠ separator), (s.dropWhile (· ≠ separator)).drop 1)
  else none

def parsePadRange (part : List Char) : Option PadRange := do
  let (lo, hi) ← splitOnce '-' part
  let lo ← parseUsize (trim lo)
  let hi ← parseUsize (trim hi)
  if bounds : 1 ≤ lo ∧ lo ≤ hi ∧ hi ≤ maxRecordSize then
    some ⟨lo, hi, bounds.1, bounds.2.1, bounds.2.2⟩
  else none

def parsePaddingScheme (s : String) : Option PaddingScheme := do
  let parts := ((s.toList.splitOn ';').map trim).filter fun part => !part.isEmpty
  let ranges ← parts.mapM parsePadRange
  if nonempty : ranges ≠ [] then some ⟨ranges, nonempty⟩ else none

/-- `DEFAULT_PAD_SCHEME`. -/
def defaultPadScheme : PaddingScheme where
  ranges := [⟨64, 256, by decide, by decide, by decide⟩, ⟨256, 800, by decide, by decide, by decide⟩,
    ⟨100, 1400, by decide, by decide, by decide⟩, ⟨600, 1200, by decide, by decide, by decide⟩,
    ⟨128, 512, by decide, by decide, by decide⟩, ⟨900, 1400, by decide, by decide, by decide⟩,
    ⟨64, 700, by decide, by decide, by decide⟩, ⟨400, 1400, by decide, by decide, by decide⟩]
  nonempty := by decide

example : (parsePaddingScheme " 64-256; 256 - 800;").map
    (fun scheme => scheme.ranges.map fun range => (range.lo, range.hi)) =
    some [(64, 256), (256, 800)] := by decide

end Padding

section Negotiation

def buildCipherNego (clientSupportsAes : Bool) : Bytes :=
  [0xFF, 0xFF, if clientSupportsAes then 1 else 0]

def parseCipherNego : Bytes → Option Bool
  | [first, second, aes] => if first = 0xFF ∧ second = 0xFF then some (aes != 0) else none
  | _ => none

def negotiate (clientAes serverAes : Bool) : Cipher :=
  if clientAes && serverAes then .aes256Gcm else .chaCha20Poly1305

def buildCipherAck (final : Cipher) : Bytes := [0x03, final.toWire]

def parseCipherAck : Bytes → Option Cipher
  | [kind, wire] => if kind = 0x03 then Cipher.fromWire wire else none
  | _ => none

@[simp] theorem parseCipherNego_build (aes : Bool) :
    parseCipherNego (buildCipherNego aes) = some aes := by
  cases aes <;> rfl

@[simp] theorem parseCipherAck_build (final : Cipher) :
    parseCipherAck (buildCipherAck final) = some final := by
  simp [parseCipherAck, buildCipherAck]

end Negotiation

end Mirage.Tunnel
