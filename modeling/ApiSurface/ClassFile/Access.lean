/-!
Access flags of classes and members, and the visibility they give.

One bit can mean two things: what says `volatile` of a field says of a method that it is a bridge,
and what says `transient` of a field says of a method that its last parameter takes any number of
arguments.

| here | there |
|---|---|
| `AccessFlags.has` | `AccessFlags.contains` |
| `AccessFlags.describe` | `AccessFlags.fmt` |
| `Visibility.ofFlags` | `Visibility.from_flags` |
| `Visibility.isExported` | `Visibility.is_exported` |
-/

namespace ApiSurface

/-- The sixteen access bits of a class, a method or a field. -/
structure AccessFlags where
  bits : UInt16
  deriving DecidableEq, Repr

namespace AccessFlags

/-! ## The bits -/

def publicBit : UInt16 := 0x0001
def privateBit : UInt16 := 0x0002
def protectedBit : UInt16 := 0x0004
def staticBit : UInt16 := 0x0008
def finalBit : UInt16 := 0x0010
/-- Of a method. -/
def synchronizedBit : UInt16 := 0x0020
/-- Of a field. -/
def volatileBit : UInt16 := 0x0040
/-- Of a method: added by a compiler to forward to one with other types. -/
def bridgeBit : UInt16 := 0x0040
/-- Of a field. -/
def transientBit : UInt16 := 0x0080
/-- Of a method: the last parameter takes any number of arguments. -/
def varargsBit : UInt16 := 0x0080
def nativeBit : UInt16 := 0x0100
def interfaceBit : UInt16 := 0x0200
def abstractBit : UInt16 := 0x0400
def strictBit : UInt16 := 0x0800
/-- Made by a compiler, with no counterpart in the source. -/
def syntheticBit : UInt16 := 0x1000
def annotationBit : UInt16 := 0x2000

/-! ## Reading them -/

/-- Every bit of `mask` is set. -/
def has (flags : AccessFlags) (mask : UInt16) : Bool :=
  flags.bits &&& mask = mask

/-- The bits as four hexadecimal digits, for diagnostics. -/
def describe (flags : AccessFlags) : String :=
  let digits := Nat.toDigits 16 flags.bits.toNat
  "AccessFlags(0x" ++ String.ofList (List.replicate (4 - digits.length) '0' ++ digits) ++ ")"

end AccessFlags

/-- From where a member can be used. -/
inductive Visibility
  | everywhere
  | inSubclasses
  | inPackage
  | inClass
  deriving DecidableEq, Repr

namespace Visibility

/-- The widest visibility that the flags name wins; with none of the three bits it is the package. -/
def ofFlags (flags : AccessFlags) : Visibility :=
  if flags.has AccessFlags.publicBit then .everywhere
  else if flags.has AccessFlags.protectedBit then .inSubclasses
  else if flags.has AccessFlags.privateBit then .inClass
  else .inPackage

/-- Seen from outside the artifact. -/
def isExported : Visibility → Bool
  | .everywhere | .inSubclasses => true
  | .inPackage | .inClass => false

/-- The word for it, which is also the keyword where there is one. -/
def name : Visibility → String
  | .everywhere => "public"
  | .inSubclasses => "protected"
  | .inPackage => "package"
  | .inClass => "private"

end Visibility

end ApiSurface
