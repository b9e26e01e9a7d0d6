import Std.Data.TreeMap.Lemmas

/-!
# Environments

The names that have been declared and their values.  There is one flat environment; a name is
never removed from it.

## Main definitions

* `Environment` — names with their values.
* `Environment.get?`, `Environment.contains`, `Environment.set` — looking up and binding.
* `Environment.toList` — the names in the order of their code points, with their values.
* `Environment.SameNames` — that two environments declare the same names.

## Main results

* `Environment.get?_set` — binding a name changes the value of that name only.
* `Environment.SameNames.set`, `Environment.sameNames_set` — binding a name, and which names are
  declared.
* `Environment.mem_toList_iff`, `Environment.toList_ascending` — the list holds what can be looked
  up, in order.
-/

namespace Reckoner

/-- The names that have been declared, with their values. -/
structure Environment where
  /-- The value of every name. -/
  values : Std.TreeMap String Float

namespace Environment

/-- The environment in which nothing is declared. -/
def empty : Environment := ⟨∅⟩

instance : Inhabited Environment := ⟨empty⟩

/-- The value of a name, if it is declared. -/
def get? (env : Environment) (name : String) : Option Float := env.values[name]?

/-- Whether a name is declared. -/
def contains (env : Environment) (name : String) : Bool := (env.get? name).isSome

/-- Gives a name a value, declaring it if it is new. -/
def set (env : Environment) (name : String) (value : Float) : Environment :=
  ⟨env.values.insert name value⟩

/-- The names in the order of their code points, with their values. -/
def toList (env : Environment) : List (String × Float) := env.values.toList

@[simp] theorem get?_empty (name : String) : empty.get? name = none := by
  simp [empty, get?]

@[simp] theorem contains_empty (name : String) : empty.contains name = false := by
  simp [contains]

/-- Binding a name changes the value of that name only. -/
theorem get?_set (env : Environment) (name other : String) (value : Float) :
    (env.set name value).get? other = if name = other then some value else env.get? other := by
  simp [get?, set, Std.TreeMap.getElem?_insert]

@[simp] theorem get?_set_self (env : Environment) (name : String) (value : Float) :
    (env.set name value).get? name = some value := by
  simp [get?_set]

/-- The list holds exactly the values that can be looked up. -/
theorem mem_toList_iff (env : Environment) (name : String) (value : Float) :
    (name, value) ∈ env.toList ↔ env.get? name = some value :=
  Std.TreeMap.mem_toList_iff_getElem?_eq_some

/-- The names of the list ascend by their code points. -/
theorem toList_ascending (env : Environment) :
    env.toList.Pairwise fun a b => compare a.1 b.1 = .lt :=
  Std.TreeMap.ordered_keys_toList

/-- Binding a name declares that name and no other. -/
theorem contains_set (env : Environment) (name other : String) (value : Float) :
    (env.set name value).contains other = (name == other || env.contains other) := by
  by_cases h : name = other <;> simp [contains, get?_set, h]

/-! ### Which names are declared -/

/-- The same names are declared, whatever their values. -/
def SameNames (env other : Environment) : Prop := ∀ name, env.contains name = other.contains name

namespace SameNames

theorem refl (env : Environment) : env.SameNames env := fun _ => rfl

theorem trans {env between other : Environment} (h : env.SameNames between)
    (h' : between.SameNames other) : env.SameNames other := fun name => (h name).trans (h' name)

/-- Binding the same name, to whatever values, keeps the names the same. -/
theorem set {env other : Environment} (h : env.SameNames other) (name : String)
    (value value' : Float) : (env.set name value).SameNames (other.set name value') := by
  intro found
  rw [contains_set, contains_set, h found]

end SameNames

/-- Binding a name that is declared declares nothing. -/
theorem sameNames_set {env : Environment} {name : String} (h : env.contains name = true)
    (value : Float) : (env.set name value).SameNames env := by
  intro found
  rw [contains_set]
  by_cases heq : name = found
  · rw [← heq, h, Bool.or_true]
  · rw [beq_false_of_ne heq, Bool.false_or]

end Environment

end Reckoner
