import Mathlib.Data.List.TakeWhile
import FilterScope.Text.Reading

/-!
# What a reader gives and leaves

`Reads result value rest` says that a reader succeeded, what it gave and which text it left. The
bound that a reading carries is hidden behind it, so the text that was read can be rewritten, and a
reading that is changed after the fact (by `map`, `weaken`, `thenLayout`) follows by `Reads.map`.

A reader that reads a run of characters reads it as far as it goes. `Stops kind rest` says that the
text behind a run does not continue it, which is what makes the end of the run predictable.
-/

namespace FilterScope.Text

/-! ## Results of readers -/

variable {α β : Type} {n : Nat}

/-- A reader succeeded with this value and left this text. -/
def Reads (result : Option (Reading α n)) (value : α) (rest : List Char) : Prop :=
  ∃ bound, result = some ⟨value, rest, bound⟩

namespace Reads

variable {result : Option (Reading α n)} {value : α} {rest : List Char}

theorem of_eq_some {r : Reading α n} (h : result = some r) : Reads result r.value r.rest :=
  ⟨r.bound, h⟩

/-- A reading gives its own value and leaves its own rest. -/
theorem some_iff {r : Reading α n} :
    Reads (some r) value rest ↔ r.value = value ∧ r.rest = rest := by
  constructor
  · rintro ⟨bound, heq⟩
    obtain rfl := Option.some.inj heq
    exact ⟨rfl, rfl⟩
  · rintro ⟨rfl, rfl⟩
    exact of_eq_some rfl

/-- A reader that names its failures succeeds as one that does not. -/
theorem exists_ok {ε : Type} {outcome : Except ε (Reading α n)}
    (h : Reads outcome.toOption value rest) : ∃ bound, outcome = .ok ⟨value, rest, bound⟩ := by
  obtain ⟨bound, heq⟩ := h
  cases outcome with
  | error failure => cases heq
  | ok r => exact ⟨bound, congrArg Except.ok (Option.some.inj heq)⟩

/-- A reading that is changed after the fact gives and leaves what the change makes of it. -/
theorem map {m : Nat} {f : Reading α n → Reading β m} {value' : β} {rest' : List Char}
    (h : Reads result value rest)
    (hf : ∀ bound, (f ⟨value, rest, bound⟩).value = value' ∧
      (f ⟨value, rest, bound⟩).rest = rest') :
    Reads (result.map f) value' rest' := by
  obtain ⟨bound, rfl⟩ := h
  obtain ⟨rfl, rfl⟩ := hf bound
  exact .of_eq_some rfl

theorem thenLayout {rest' : List Char} (h : Reads result value rest)
    (hrest : dropLayout rest = rest') : Reads (result.map (·.thenLayout)) value rest' :=
  h.map fun _ => ⟨rfl, hrest⟩

/-- What the first of two readers reads, both together read. -/
theorem orElse (h : Reads result value rest) (other : Option (Reading α n)) :
    Reads (result <|> other) value rest := by
  obtain ⟨bound, rfl⟩ := h
  exact ⟨bound, rfl⟩

end Reads

/-! ## Where a run of characters stops -/

/-- A run of characters of a kind that goes up to the text does not go on into it. -/
def Stops (kind : Char → Bool) (text : List Char) : Prop :=
  ∀ c ∈ text.head?, kind c = false

section Runs

variable {kind : Char → Bool} {text rest : List Char}

@[simp] theorem stops_nil (kind : Char → Bool) : Stops kind [] := by
  simp [Stops]

@[simp] theorem stops_cons {c : Char} {cs : List Char} :
    Stops kind (c :: cs) ↔ kind c = false := by
  simp [Stops]

/-- A run of characters of a kind is taken as far as the text where they stop. -/
theorem takeWhile_append_of_stops (htext : ∀ c ∈ text, kind c = true) (hrest : Stops kind rest) :
    (text ++ rest).takeWhile kind = text := by
  rw [List.takeWhile_append_of_pos htext]
  cases rest with
  | nil => simp
  | cons c cs => simp [stops_cons.mp hrest]

theorem dropWhile_of_stops (hrest : Stops kind rest) : rest.dropWhile kind = rest := by
  cases rest with
  | nil => rfl
  | cons c cs => exact List.dropWhile_cons_of_neg (by simp [stops_cons.mp hrest])

/-- A run of characters of a kind is dropped up to the text where they stop. -/
theorem dropWhile_append_of_stops (htext : ∀ c ∈ text, kind c = true) (hrest : Stops kind rest) :
    (text ++ rest).dropWhile kind = rest := by
  rw [List.dropWhile_append_of_pos htext, dropWhile_of_stops hrest]

/-- Behind a run that is dropped, characters of the kind stop. -/
theorem stops_dropWhile (kind : Char → Bool) (cs : List Char) : Stops kind (cs.dropWhile kind) := by
  induction cs with
  | nil => exact stops_nil kind
  | cons c cs ih =>
    by_cases hc : kind c = true
    · rwa [List.dropWhile_cons_of_pos hc]
    · rw [List.dropWhile_cons_of_neg hc]
      exact stops_cons.mpr (by simpa using hc)

end Runs

/-! ## Readers of characters -/

/-- A character that is read stands at the front. -/
theorem eq_cons_of_char? {c : Char} {cs : List Char} {r : Reading Unit cs.length}
    (h : char? c cs = some r) : cs = c :: r.rest := by
  cases cs with
  | nil => cases h
  | cons d cs =>
    by_cases hd : d = c
    · rw [char?, if_pos hd] at h
      obtain rfl := Option.some.inj h
      rw [hd]
      rfl
    · rw [char?, if_neg hd] at h
      cases h

theorem reads_char? (c : Char) (cs : List Char) : Reads (char? c (c :: cs)) () cs := by
  rw [char?, if_pos rfl]
  exact .of_eq_some rfl

/-- Another character at the front is not read. -/
theorem char?_cons_of_ne {c d : Char} (h : d ≠ c) (cs : List Char) : char? c (d :: cs) = none := by
  rw [char?, if_neg h]

/-- A text that is read stands at the front. -/
theorem eq_append_of_text? {text cs : List Char} {r : Reading Unit (cs.length + 1)}
    (h : text? text cs = some r) : cs = text ++ r.rest := by
  induction text generalizing cs with
  | nil =>
    rw [text?] at h
    obtain rfl := Option.some.inj h
    rfl
  | cons t text ih =>
    cases cs with
    | nil => cases h
    | cons c cs =>
      by_cases hc : t = c
      · rw [text?, if_pos hc] at h
        obtain ⟨s, hs, rfl⟩ := Option.map_eq_some_iff.mp h
        rw [hc]
        exact congrArg (c :: ·) (ih hs)
      · rw [text?, if_neg hc] at h
        cases h

theorem dropLayout_cons {c : Char} {cs : List Char} :
    dropLayout (c :: cs) = if isLayout c then dropLayout cs else c :: cs :=
  List.dropWhile_cons

/-- Layout in front is dropped. -/
theorem dropLayout_append {layout : List Char} (h : ∀ c ∈ layout, isLayout c = true)
    (text : List Char) : dropLayout (layout ++ text) = dropLayout text :=
  List.dropWhile_append_of_pos h

/-- Layout in front is dropped, and no more than that. -/
theorem dropLayout_append_of_stops {layout text : List Char} (h : ∀ c ∈ layout, isLayout c = true)
    (htext : Stops isLayout text) : dropLayout (layout ++ text) = text :=
  dropWhile_append_of_stops h htext

theorem dropLayout_eq_nil {layout : List Char} (h : ∀ c ∈ layout, isLayout c = true) :
    dropLayout layout = [] := by
  rw [← List.append_nil layout, dropLayout_append h]
  rfl

/-- Behind dropped layout there is none. -/
@[simp] theorem dropLayout_dropLayout (cs : List Char) :
    dropLayout (dropLayout cs) = dropLayout cs :=
  dropWhile_of_stops (stops_dropWhile isLayout cs)

/-- The visible character that is read is the first one behind layout. -/
theorem dropLayout_of_visible? {cs : List Char} {r : Reading Char cs.length}
    (h : visible? cs = some r) : dropLayout cs = r.value :: r.rest := by
  induction cs with
  | nil => cases h
  | cons c cs ih =>
    by_cases hc : isLayout c = true
    · rw [visible?, if_pos hc] at h
      obtain ⟨s, hs, rfl⟩ := Option.map_eq_some_iff.mp h
      rw [dropLayout_cons, if_pos hc]
      exact ih hs
    · rw [visible?, if_neg hc] at h
      obtain rfl := Option.some.inj h
      rw [dropLayout_cons, if_neg hc]
      rfl

theorem reads_visible? {c : Char} {cs rest : List Char} (h : dropLayout cs = c :: rest) :
    Reads (visible? cs) c rest := by
  induction cs with
  | nil => cases h
  | cons d cs ih =>
    by_cases hd : isLayout d = true
    · rw [dropLayout_cons, if_pos hd] at h
      rw [visible?, if_pos hd]
      exact (ih h).map fun _ => ⟨rfl, rfl⟩
    · rw [dropLayout_cons, if_neg hd] at h
      obtain ⟨rfl, rfl⟩ := List.cons.inj h
      rw [visible?, if_neg hd]
      exact .of_eq_some rfl

/-- Where no visible character is read, there is nothing but layout. -/
theorem dropLayout_of_visible?_eq_none {cs : List Char} (h : visible? cs = none) :
    dropLayout cs = [] := by
  cases hcs : dropLayout cs with
  | nil => rfl
  | cons c rest =>
    obtain ⟨_, hsome⟩ := reads_visible? hcs
    rw [h] at hsome
    cases hsome

end FilterScope.Text
