import CodexOctopus.Python

/-!
# Headers

A map of header names to values that is written as a Python dictionary and read
without regard to case.

* `get_set_of_ne`, `get_pop_of_ne`: setting or dropping one name leaves the others.
* `get_set_self`: what was set is read back, if the name stands nowhere in another case.
-/

structure HeaderName where
  text : String
  lower_text : Python.lower text = text
  deriving DecidableEq

structure Headers where
  entries : List (String × String)
  deriving DecidableEq

namespace Headers

def get (h : Headers) (name : HeaderName) : Option String :=
  (h.entries.find? fun x => Python.lower x.1 = name.text).map Prod.snd

def set (h : Headers) (name : HeaderName) (value : String) : Headers :=
  ⟨Python.setItem name.text value h.entries⟩

def pop (h : Headers) (name : HeaderName) : Headers :=
  ⟨h.entries.filter fun x => x.1 ≠ name.text⟩

variable {h : Headers} {name other : HeaderName} {text value : String}

theorem text_ne (hne : name ≠ other) : name.text ≠ other.text := by
  intro htext
  cases name
  cases other
  exact hne ((HeaderName.mk.injEq ..).mpr htext)

theorem get_set_of_ne (hne : name ≠ other) : (h.set name value).get other = h.get other := by
  have hp : ∀ v, decide (Python.lower ((name.text, v) : String × String).1 = other.text) =
    false := by
    intro v
    rw [name.lower_text]
    exact decide_eq_false (text_ne hne)
  rw [get, set, Python.find?_setItem hp, get]

theorem get_pop_of_ne (hne : name ≠ other) : (h.pop name).get other = h.get other := by
  rw [get, pop, get, List.find?_filter]
  congr 2
  funext x
  by_cases hx : x.1 = name.text
  · simp [hx, name.lower_text, text_ne hne]
  · simp [hx]

def Cased (h : Headers) (name : HeaderName) : Prop :=
  ∀ x ∈ h.entries, Python.lower x.1 = name.text → x.1 = name.text

theorem get_set_self (hcased : h.Cased name) : (h.set name value).get name = some value := by
  have hp : decide (Python.lower ((name.text, value) : String × String).1 = name.text) = true :=
    decide_eq_true name.lower_text
  rw [get, set, Python.find?_setItem_self hp, Option.map_some]
  exact fun x hx hlower => hcased x hx (of_decide_eq_true hlower)

theorem Cased.set (hcased : h.Cased other) : (h.set name value).Cased other := by
  intro x hx hlower
  obtain rfl | ⟨hx, -⟩ := Python.mem_setItem hx
  · rw [← hlower, name.lower_text]
  · exact hcased x hx hlower

theorem Cased.pop (hcased : h.Cased other) : (h.pop name).Cased other :=
  fun x hx => hcased x (List.mem_of_mem_filter hx)

end Headers
