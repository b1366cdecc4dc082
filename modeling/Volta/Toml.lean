/-
Values of a TOML file, and the library that converts them.

`value<std::string>()` gives strings only.  `value<T>()` of an integer type
converts other values too; what it makes of them is a parameter, as are the
converted numbers.
-/
import Mathlib.Algebra.Group.Int.Defs
import Mathlib.Data.Rat.Init

namespace Volta

inductive TomlNode where
  | string (value : String)
  | integer (value : Int64)
  /-- `none` is an infinity or not a number. -/
  | floatingPoint (value : Option ℚ)
  | boolean (value : Bool)
  | dateTime (text : String)
  | array (items : List TomlNode)
  | table (entries : List (String × TomlNode))

def TomlNode.valueString : TomlNode → Option String
  | .string value => some value
  | _ => none

theorem TomlNode.valueString_eq_some_iff {node : TomlNode} {s : String} :
    node.valueString = some s ↔ node = .string s := by
  cases node with
  | string value =>
    constructor
    · intro h
      rw [Option.some_inj.mp h]
    · intro h
      rw [h, valueString]
  | integer | floatingPoint | boolean | dateTime | array | table =>
    simp [valueString]

/-- `value<unsigned int>()` and `value<int>()`. -/
structure TomlLib where
  valueUInt32 : TomlNode → Option UInt32
  valueInt32 : TomlNode → Option Int32

/-- An integer is converted if the type has it, and a string is not. -/
structure TomlLib.Converts (lib : TomlLib) : Prop where
  uint32_integer : ∀ n x, lib.valueUInt32 (.integer n) = some x ↔ n.toInt = x.toNat
  uint32_string : ∀ s, lib.valueUInt32 (.string s) = none
  int32_integer : ∀ n x, lib.valueInt32 (.integer n) = some x ↔ n.toInt = x.toInt
  int32_string : ∀ s, lib.valueInt32 (.string s) = none

/-- The number that a value can be read as. -/
def TomlNode.asInt : TomlNode → Option ℤ
  | .integer n => some n.toInt
  | .floatingPoint (some q) => if q.den = 1 then some q.num else none
  | .boolean b => some (if b then 1 else 0)
  | _ => none

/-- A library that converts all of these. -/
def TomlLib.permissive : TomlLib where
  valueUInt32 node := node.asInt.bind fun n =>
    if 0 ≤ n ∧ n < 2 ^ 32 then some (UInt32.ofNat n.toNat) else none
  valueInt32 node := node.asInt.bind fun n =>
    if -2 ^ 31 ≤ n ∧ n < 2 ^ 31 then some (Int32.ofInt n) else none

theorem TomlLib.converts_permissive : TomlLib.permissive.Converts where
  uint32_integer n x := by
    have hx := x.toNat_lt
    show (if 0 ≤ n.toInt ∧ n.toInt < 2 ^ 32 then some (UInt32.ofNat n.toInt.toNat) else none)
      = some x ↔ _
    constructor
    · intro h
      split at h
      · rename_i hn
        rw [← Option.some_inj.mp h, UInt32.toNat_ofNat', Nat.mod_eq_of_lt (by omega)]
        omega
      · exact absurd h (by simp)
    · intro h
      rw [if_pos (by omega), h, Int.toNat_natCast, UInt32.ofNat_toNat]
  uint32_string _ := rfl
  int32_integer n x := by
    have hx := x.toInt_lt
    have hx' := x.le_toInt
    show (if -2 ^ 31 ≤ n.toInt ∧ n.toInt < 2 ^ 31 then some (Int32.ofInt n.toInt) else none)
      = some x ↔ _
    constructor
    · intro h
      split at h
      · rename_i hn
        rw [← Option.some_inj.mp h, Int32.toInt_ofInt_of_le (by omega) (by omega)]
      · exact absurd h (by simp)
    · intro h
      rw [if_pos (by omega), h, Int32.ofInt_toInt]
  int32_string _ := rfl

end Volta
