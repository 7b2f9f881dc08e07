import FilterScope.Proofs.Json.Record

/-!
# Names in the value of a record

A value that is read as a record names its parts: an object by its keys, a list by the places of its
items. `Value.named` gives the parts with their names in both forms, and `Value.mapNamed` changes
them. Only an object has **keys**, and only an object can have a key that is no name of a part.

For records that refuse such keys:

* a value that is accepted has no other keys (`Record.keys_subset_of_ofValue`), and each of its
  parts was accepted (`Record.accepts_of_ofValue`);
* a value that is accepted without its other keys is, with them, accepted or refused as misshapen
  (`Record.tightens_ofValue`); nothing else can become of it.
-/

namespace FilterScope.Json

variable {α β σ : Type}

namespace Value

/-! ## Equality of values -/

mutual

/-- Whether two values are the same. -/
def same : Value → Value → Bool
  | .null, .null => true
  | .bool b, .bool c => b == c
  | .number, .number => true
  | .text s, .text t => s == t
  | .list items, .list items' => sameItems items items'
  | .object entries, .object entries' => sameEntries entries entries'
  | _, _ => false

/-- Whether two lists hold the same values. -/
def sameItems : List Value → List Value → Bool
  | [], [] => true
  | v :: items, w :: items' => v.same w && sameItems items items'
  | _, _ => false

/-- Whether two objects have the same members in the same order. -/
def sameEntries : List (String × Value) → List (String × Value) → Bool
  | [], [] => true
  | (key, v) :: entries, (key', w) :: entries' =>
    key == key' && v.same w && sameEntries entries entries'
  | _, _ => false

end

mutual

/-- Values are the same if and only if they are equal. -/
theorem same_iff : ∀ v w : Value, v.same w = true ↔ v = w
  | .null, w => by cases w <;> simp [same]
  | .bool b, w => by cases w <;> simp [same]
  | .number, w => by cases w <;> simp [same]
  | .text s, w => by cases w <;> simp [same]
  | .list items, w => by cases w <;> simp [same, sameItems_iff items]
  | .object entries, w => by cases w <;> simp [same, sameEntries_iff entries]

theorem sameItems_iff : ∀ items items' : List Value, sameItems items items' = true ↔ items = items'
  | [], items' => by cases items' <;> simp [sameItems]
  | v :: items, items' => by cases items' <;> simp [sameItems, same_iff v, sameItems_iff items]

theorem sameEntries_iff : ∀ entries entries' : List (String × Value),
    sameEntries entries entries' = true ↔ entries = entries'
  | [], entries' => by cases entries' <;> simp [sameEntries]
  | (key, v) :: entries, entries' => by
    cases entries' <;> simp [sameEntries, same_iff v, sameEntries_iff entries, Prod.ext_iff]

end

instance : DecidableEq Value := fun v w => decidable_of_iff _ (same_iff v w)

/-! ## Parts and keys -/

/-- The keys of an object. -/
def keys : Value → List String
  | .object entries => entries.map (·.1)
  | _ => []

/-- The items of a list. -/
def items : Value → List Value
  | .list items => items
  | _ => []

/-- The parts of a record, by their names. In a list the names stand in the given order. -/
def named (names : List String) : Value → List (String × Value)
  | .object entries => entries
  | .list items => names.zip items
  | _ => []

/-- The values of the parts with a name. -/
def part (names : List String) (name : String) (v : Value) : List Value :=
  ((v.named names).filter (·.1 == name)).map (·.2)

/-- An object without the members whose keys are no names of parts. -/
def only (names : List String) : Value → Value
  | .object entries => .object (entries.filter (names.contains ·.1))
  | v => v

/-- Changes the items of a list. -/
def mapItems (f : Value → Value) : Value → Value
  | .list items => .list (items.map f)
  | v => v

/-- Changes the items of a list that stands for the parts with these names. -/
def mapPlaces (f : String → Value → Value) : List String → List Value → List Value
  | _, [] => []
  | [], items => items
  | name :: names, item :: items => f name item :: mapPlaces f names items

/-- Changes the parts of a record, each as its name says. -/
def mapNamed (names : List String) (f : String → Value → Value) : Value → Value
  | .object entries => .object (entries.map fun entry => (entry.1, f entry.1 entry.2))
  | .list items => .list (mapPlaces f names items)
  | v => v

theorem mapPlaces_self (names : List String) (items : List Value) :
    mapPlaces (fun _ v => v) names items = items := by
  induction names generalizing items with
  | nil => cases items <;> rfl
  | cons name names ih =>
    cases items with
    | nil => rfl
    | cons item items => rw [mapPlaces, ih]

/-- Parts that are not changed leave the value as it is. -/
theorem mapNamed_self (names : List String) (v : Value) : v.mapNamed names (fun _ w => w) = v := by
  cases v with
  | object entries => exact congrArg Value.object (List.map_id entries)
  | list items => exact congrArg Value.list (mapPlaces_self names items)
  | _ => rfl

/-! ## Lists -/

section Lists

variable {look : Value → Except Fault α} {f : Value → Value}

/-- A change of items that no look notices is not noticed in the list. -/
theorem asList_mapItems (h : ∀ v, look (f v) = look v) (v : Value) :
    (v.mapItems f).asList look = v.asList look := by
  cases v with
  | list items =>
    rw [mapItems, asList, List.mapM_map, show look ∘ f = look from funext h]
    rfl
  | _ => rfl

/-- The items of a list that is accepted are accepted. -/
theorem accepts_of_asList {v w : Value} {as : List α} (h : v.asList look = .ok as)
    (hw : w ∈ v.items) : ∃ a, look w = .ok a := by
  cases v with
  | list items =>
    rw [asList] at h
    induction items generalizing as with
    | nil => cases hw
    | cons item items ih =>
      rw [List.mapM_cons] at h
      obtain ⟨a, hitem, h⟩ := Reader.bind_eq_ok.mp h
      obtain ⟨more, hitems, -⟩ := Reader.bind_eq_ok.mp h
      rcases List.mem_cons.mp hw with rfl | hw
      · exact ⟨a, hitem⟩
      · exact ih hitems hw
  | _ => cases hw

end Lists

end Value

/-! ## Refusing more -/

/-- What one look gives, the other one gives too, unless it refuses the value as misshapen. -/
def Tightens (loose tight : Except Fault α) : Prop :=
  ∀ a, loose = .ok a → tight = .ok a ∨ tight = .error .misshapen

namespace Tightens

variable {loose tight : Except Fault α}

theorem of_eq (h : loose = tight) : Tightens loose tight :=
  fun _ ha => .inl (h ▸ ha)

theorem misshapen : Tightens loose (.error .misshapen) :=
  fun _ _ => .inr rfl

/-- What is refused as misshapen first is refused as such in the end. -/
theorem bind {f g : α → Except Fault β} (h : Tightens loose tight)
    (hnext : ∀ a, Tightens (f a) (g a)) : Tightens (loose >>= f) (tight >>= g) := by
  intro b hb
  obtain ⟨a, ha, hf⟩ := Reader.bind_eq_ok.mp hb
  rcases h a ha with heq | heq
  · rw [heq]
    exact hnext a b hf
  · rw [heq]
    exact .inr rfl

theorem map (f : α → β) (h : Tightens loose tight) : Tightens (f <$> loose) (f <$> tight) := by
  rw [map_eq_pure_bind, map_eq_pure_bind]
  exact h.bind fun _ => .of_eq rfl

theorem mapM {f g : β → Except Fault α} (h : ∀ b, Tightens (f b) (g b)) (bs : List β) :
    Tightens (bs.mapM f) (bs.mapM g) := by
  induction bs with
  | nil => exact .of_eq rfl
  | cons b bs ih =>
    rw [List.mapM_cons, List.mapM_cons]
    exact (h b).bind fun a => ih.bind fun more => .of_eq rfl

/-- A list is accepted with its items, or refused as misshapen. -/
theorem asList {look : Value → Except Fault α} {f : Value → Value}
    (h : ∀ v, Tightens (look (f v)) (look v)) (v : Value) :
    Tightens ((v.mapItems f).asList look) (v.asList look) := by
  cases v with
  | list items =>
    simp only [Value.mapItems, Value.asList, List.mapM_map]
    exact .mapM h items
  | _ => exact .of_eq rfl

end Tightens

/-! ## Records -/

namespace Record

variable {record : Record σ α} {look : String → σ → Value → Except Fault σ}

/-- The names of the parts, in the order of their declaration. -/
def names (record : Record σ α) : List String :=
  record.parts.map (·.name)

/-- A member that is accepted is a part, and its value was accepted as that part. -/
theorem exists_part_of_ofMember {state state' : σ} {entry : String × Value}
    (h : record.ofMember look state entry = .ok state') :
    entry.1 ∈ record.names ∧ look entry.1 state entry.2 = .ok state' := by
  unfold ofMember at h
  split at h
  · cases h
  · next part hfind =>
    split at h
    · cases h
    · have hname : part.name = entry.1 := by simpa using List.find?_some hfind
      have hmem : part.name ∈ record.names :=
        List.mem_map_of_mem (List.mem_of_find?_eq_some hfind)
      rw [hname] at hmem h
      exact ⟨hmem, h⟩

/-- In a run that succeeds, every step does. -/
theorem exists_of_foldlM {f : σ → β → Except Fault σ} {state state' : σ} {bs : List β} {b : β}
    (h : bs.foldlM f state = .ok state') (hb : b ∈ bs) :
    ∃ before after, f before b = .ok after := by
  induction bs generalizing state with
  | nil => cases hb
  | cons first bs ih =>
    rw [List.foldlM_cons] at h
    obtain ⟨next, hfirst, hrest⟩ := Reader.bind_eq_ok.mp h
    rcases List.mem_cons.mp hb with rfl | hb
    · exact ⟨state, next, hfirst⟩
    · exact ih hrest hb

/-- An object that is accepted has no keys but the names of parts. -/
theorem keys_subset_of_ofValue {v : Value} {a : α} (h : record.ofValue look v = .ok a) :
    v.keys ⊆ record.names := by
  cases v with
  | object entries =>
    obtain ⟨state, hentries, -⟩ := Reader.bind_eq_ok.mp h
    rintro key hkey
    obtain ⟨entry, hentry, rfl⟩ := List.mem_map.mp hkey
    obtain ⟨before, after, hmember⟩ := exists_of_foldlM hentries hentry
    exact (exists_part_of_ofMember hmember).1
  | _ => exact List.nil_subset _

/-- In a list that is accepted, every part is. -/
theorem exists_of_ofItems {parts : List (Part σ)} {state state' : σ} {items : List Value}
    (h : ofItems look state parts items = .ok state') {name : String} {w : Value}
    (hpart : (name, w) ∈ (parts.map (·.name)).zip items) :
    ∃ before after, look name before w = .ok after := by
  induction parts generalizing state items with
  | nil => cases hpart
  | cons part parts ih =>
    cases items with
    | nil => cases hpart
    | cons item items =>
      obtain ⟨next, hfirst, hrest⟩ := Reader.bind_eq_ok.mp h
      rcases List.mem_cons.mp hpart with heq | hpart
      · cases heq
        exact ⟨state, next, hfirst⟩
      · exact ih hrest hpart

/-- The parts of a record that is accepted are accepted. -/
theorem accepts_of_ofValue {v : Value} {a : α} (h : record.ofValue look v = .ok a) {name : String}
    {w : Value} (hpart : (name, w) ∈ v.named record.names) :
    ∃ before after, look name before w = .ok after := by
  cases v with
  | object entries =>
    obtain ⟨state, hentries, -⟩ := Reader.bind_eq_ok.mp h
    obtain ⟨before, after, hmember⟩ := exists_of_foldlM hentries hpart
    exact ⟨before, after, (exists_part_of_ofMember hmember).2⟩
  | list items =>
    obtain ⟨state, hitems, -⟩ := Reader.bind_eq_ok.mp h
    exact exists_of_ofItems hitems hpart
  | _ => cases hpart

/-! ### Records without other keys -/

/-- A key that is no name of a part is refused. -/
theorem ofMember_eq_error {entry : String × Value} (hkey : entry.1 ∉ record.names) (state : σ) :
    record.ofMember look state entry = .error .misshapen := by
  have hfind : record.parts.find? (·.name == entry.1) = none := by
    refine List.find?_eq_none.mpr fun part hpart heq => hkey ?_
    rw [← (beq_iff_eq.mp heq : part.name = entry.1)]
    exact List.mem_map_of_mem hpart
  rw [ofMember, hfind]

variable {f : String → Value → Value}

section Tightening

variable (hlook : ∀ part ∈ record.parts, ∀ state w,
  Tightens (look part.name state (f part.name w)) (look part.name state w))

include hlook

/-- A member is accepted with its value, or refused as misshapen. -/
theorem tightens_ofMember (state : σ) (entry : String × Value) :
    Tightens (record.ofMember look state (entry.1, f entry.1 entry.2))
      (record.ofMember look state entry) := by
  cases hfind : record.parts.find? (·.name == entry.1) with
  | none =>
    simp only [ofMember, hfind]
    exact .misshapen
  | some part =>
    simp only [ofMember, hfind]
    split
    · exact .misshapen
    · have hname : part.name = entry.1 := by simpa using List.find?_some hfind
      rw [← hname]
      exact hlook part (List.mem_of_find?_eq_some hfind) state entry.2

/-- With other keys, members are accepted as without them or refused as misshapen. -/
theorem tightens_foldlM (entries : List (String × Value)) (state : σ) :
    Tightens
      (((entries.filter (record.names.contains ·.1)).map fun entry =>
        (entry.1, f entry.1 entry.2)).foldlM (record.ofMember look) state)
      (entries.foldlM (record.ofMember look) state) := by
  induction entries generalizing state with
  | nil => exact .of_eq rfl
  | cons entry entries ih =>
    rw [List.foldlM_cons]
    by_cases hkey : entry.1 ∈ record.names
    · rw [List.filter_cons_of_pos (by simpa using hkey), List.map_cons, List.foldlM_cons]
      exact (tightens_ofMember hlook state entry).bind ih
    · rw [ofMember_eq_error hkey, Reader.error_bind]
      exact .misshapen

/-- A list is accepted with its parts, or refused as misshapen. -/
theorem tightens_ofItems (parts : List (Part σ)) (hsub : parts ⊆ record.parts)
    (items : List Value) (state : σ) :
    Tightens (ofItems look state parts (Value.mapPlaces f (parts.map (·.name)) items))
      (ofItems look state parts items) := by
  induction parts generalizing items state with
  | nil => cases items <;> exact .of_eq rfl
  | cons part parts ih =>
    cases items with
    | nil => exact .of_eq rfl
    | cons item items =>
      exact (hlook part (hsub List.mem_cons_self) state item).bind
        (ih (List.subset_of_cons_subset hsub) items)

/-- A record that is accepted without its other keys is accepted with them, unless it is refused as
misshapen. -/
theorem tightens_ofValue (v : Value) :
    Tightens (record.ofValue look ((v.only record.names).mapNamed record.names f))
      (record.ofValue look v) := by
  cases v with
  | object entries =>
    exact (tightens_foldlM hlook entries _).bind fun _ => .of_eq rfl
  | list items =>
    exact (tightens_ofItems hlook record.parts (List.Subset.refl _) items _).bind
      fun _ => .of_eq rfl
  | _ => exact .of_eq rfl

end Tightening

section Congruence

variable (hlook : ∀ part ∈ record.parts, ∀ state w,
  look part.name state (f part.name w) = look part.name state w)

include hlook

/-- A change of parts that no look notices is not noticed in the list. -/
theorem ofItems_mapPlaces (parts : List (Part σ)) (hsub : parts ⊆ record.parts)
    (items : List Value) (state : σ) :
    ofItems look state parts (Value.mapPlaces f (parts.map (·.name)) items) =
      ofItems look state parts items := by
  induction parts generalizing items state with
  | nil => cases items <;> rfl
  | cons part parts ih =>
    cases items with
    | nil => rfl
    | cons item items =>
      simp only [ofItems, List.map_cons, Value.mapPlaces,
        hlook part (hsub List.mem_cons_self), ih (List.subset_of_cons_subset hsub)]

/-- A change of the parts that no look at them notices is not noticed. -/
theorem ofValue_mapNamed (v : Value) :
    record.ofValue look (v.mapNamed record.names f) = record.ofValue look v := by
  cases v with
  | object entries =>
    have hmember (state : σ) (entry : String × Value) :
        record.ofMember look state (entry.1, f entry.1 entry.2) =
          record.ofMember look state entry := by
      cases hfind : record.parts.find? (·.name == entry.1) with
      | none => simp only [ofMember, hfind]
      | some part =>
        have hname : part.name = entry.1 := by simpa using List.find?_some hfind
        simp only [ofMember, hfind]
        rw [← hname, hlook part (List.mem_of_find?_eq_some hfind)]
    simp only [ofValue, Value.mapNamed, List.foldlM_map, hmember]
  | list items =>
    simp only [ofValue, Value.mapNamed]
    rw [names, ofItems_mapPlaces hlook record.parts (List.Subset.refl _)]
  | _ => rfl

end Congruence

end Record

end FilterScope.Json
