import ModuleInspector.StrongName.Digest
import ModuleInspector.Text.Hex

/-!
# Module identities

A module is identified by its name, version, culture and key. References carry the token of the
key: the last eight bytes of its hash, in reverse order. Keys and tokens are written as
hexadecimal text.
-/

namespace ModuleInspector

/-- A public key, or the token of one. -/
inductive KeyIdentity
  | publicKey (key : List UInt8)
  | token (value : UInt64)
  deriving DecidableEq

namespace KeyIdentity

/-- The number that bytes write, least significant first. -/
def littleEndian (data : List UInt8) : Nat :=
  data.foldr (fun byte value => byte.toNat + 256 * value) 0

/-- The token of a key, or the token itself. -/
def toToken : KeyIdentity → UInt64
  | publicKey key => UInt64.ofNat (littleEndian ((StrongName.digest key).drop 12))
  | token value => value

/-- The sixteen digits of the token. -/
def text (identity : KeyIdentity) : String :=
  String.ofList (Text.hexDigits 16 identity.toToken.toNat)

end KeyIdentity

/-- The ways a key or token text fails to be hexadecimal. -/
inductive KeyError
  | oddLength (length : Nat)
  | notHex (offset : Nat)
  | badToken (text : String)
  deriving DecidableEq

/-- The message of a failure. -/
def KeyError.message : KeyError → String
  | oddLength length => "Odd-length hex string - " ++ toString length
  | notHex offset => "Invalid hex at offset " ++ toString offset
  | badToken text => "Invalid public key token - " ++ text

/-- The digits after an optional plus sign. -/
def unsignedDigits : List UInt8 → List UInt8
  | [] => []
  | byte :: rest => if byte = '+'.toUInt8 ∧ rest ≠ [] then rest else byte :: rest

/-- The bytes of hexadecimal text from an offset on. A byte is two digits, or a plus and one. -/
def decodePairs (offset : Nat) : List UInt8 → Except KeyError (List UInt8)
  | first :: second :: rest =>
    match Text.ofHexDigits? (unsignedDigits [first, second]) with
    | none => .error (.notHex offset)
    | some value =>
      match decodePairs (offset + 2) rest with
      | .error e => .error e
      | .ok values => .ok (UInt8.ofNat value :: values)
  | _ => .ok []

/-- The bytes of hexadecimal text. -/
def decodeHex (text : String) : Except KeyError (List UInt8) :=
  let digits := Text.bytes text
  if digits.length % 2 ≠ 0 then .error (.oddLength digits.length) else decodePairs 0 digits

/-- The token of sixteen bytes of text, of which the first may be a plus. -/
def decodeToken (text : String) : Except KeyError UInt64 :=
  let digits := Text.bytes text
  match Text.ofHexDigits? (unsignedDigits digits) with
  | none => .error (.badToken text)
  | some value =>
    if digits.length = 16 then .ok (UInt64.ofNat value) else .error (.badToken text)

/-- The recorded identity of a module. -/
structure ModuleIdentity where
  name : String
  version : Option String
  culture : Option String
  publicKey : Option String
  publicKeyToken : Option String
  deriving DecidableEq

namespace ModuleIdentity

/-- An identity without culture and key. -/
def ofName (name version : String) : ModuleIdentity := ⟨name, some version, none, none, none⟩

/-- The key, or else the token; an empty text counts as absent. -/
def key (m : ModuleIdentity) : Except KeyError (Option KeyIdentity) :=
  match m.publicKey.filter (· != "") with
  | some text => (decodeHex text).map fun key => some (.publicKey key)
  | none =>
    match m.publicKeyToken.filter (· != "") with
    | some text => (decodeToken text).map fun token => some (.token token)
    | none => .ok none

/-- The culture, or `neutral`. -/
def cultureLabel (m : ModuleIdentity) : String := (m.culture.filter (· != "")).getD "neutral"

/-- The version, or zeros when it is not recorded. -/
def versionLabel (m : ModuleIdentity) : String := m.version.getD "0.0.0.0"

/-- The digits of the token, or `null` when there is none or it cannot be decoded. -/
def tokenLabel (m : ModuleIdentity) : String :=
  match m.key with
  | .ok (some identity) => identity.text
  | _ => "null"

/-- The name that assembly-qualified type names end with. -/
def displayName (m : ModuleIdentity) : String :=
  m.name ++ ", Version=" ++ m.versionLabel ++ ", Culture=" ++ m.cultureLabel ++
    ", PublicKeyToken=" ++ m.tokenLabel

end ModuleIdentity

end ModuleInspector
