import Mathlib.Data.List.Basic
import LineDelivery.Options

/-!
# The fields of the options

The options are the values of their fields: reading one after setting one gives what was set, and
options that agree on every field are equal.
-/

namespace LineDelivery.Options

namespace Field

theorem mem_all (field : Field) : field ∈ all := by
  cases field <;> decide

theorem name_injective : Function.Injective name := by
  intro a b same
  have distinct : ∀ a ∈ all, ∀ b ∈ all, a.name = b.name → a = b := by decide
  exact distinct a (mem_all a) b (mem_all b) same

theorem ofName_eq_some {name : String} {field : Field} :
    ofName? name = some field ↔ field.name = name := by
  constructor
  · exact fun found ↦ by simpa using List.find?_some found
  · rintro rfl
    have every : ∀ field ∈ all, ofName? field.name = some field := by decide
    exact every field (mem_all field)

theorem ofName_eq_none {name : String} :
    ofName? name = none ↔ ∀ field : Field, field.name ≠ name := by
  rw [Option.eq_none_iff_forall_ne_some]
  simp only [ne_eq, ofName_eq_some]

end Field

theorem get_lt_range (options : Options) (field : Field) : options.get field < field.range := by
  have word (word : UInt64) : word.toNat < Nat.pow 2 64 := word.toNat_lt
  have short (word : UInt32) : word.toNat < Nat.pow 2 32 := word.toNat_lt
  cases field <;> simp only [get, Field.range, word, short]

theorem get_set_self (options : Options) {field : Field} {value : Nat}
    (fits : value < field.range) : (options.set field value).get field = value := by
  cases field <;> simp_all [get, set, Field.range]

theorem get_set_of_ne (options : Options) {field other : Field} (differs : other ≠ field)
    (value : Nat) : (options.set field value).get other = options.get other := by
  cases field <;> cases other <;> first | rfl | exact (differs rfl).elim

theorem ext_get {options others : Options} (same : ∀ field, options.get field = others.get field) :
    options = others := by
  have every : ∀ field ∈ Field.all, options.get field = others.get field :=
    fun field _ ↦ same field
  cases options
  cases others
  simpa [Field.all, get, UInt64.toNat_inj, UInt32.toNat_inj] using every

end LineDelivery.Options
