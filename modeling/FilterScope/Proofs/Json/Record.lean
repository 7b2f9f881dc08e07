import FilterScope.Json.Record
import FilterScope.Proofs.Json.Seen

/-!
# Records seen in a value

A record that refuses names it does not have is seen in the whole value that it is read from. What
its parts are in the value is told by a function from their names, `look`; it takes the parts that
are already known, as the reader of a part does.

* In an object the members are looked at in their order (`Record.ofMember`), and the first one that
  is no part, or a part for the second time, or not of its kind, refuses the whole.
* In a list the items are looked at as the parts in their order (`Record.ofItems`). Items beyond the
  last part are a fault of the text rather than of a value, because a reader stops before them.
-/

namespace FilterScope.Json

open Text Reader

variable {σ α : Type}

namespace Record

/-! ## Looking at records -/

/-- What a member adds to the parts that are known. -/
def ofMember (record : Record σ α) (look : String → σ → Value → Except Fault σ) (state : σ)
    (entry : String × Value) : Except Fault σ :=
  match record.parts.find? (·.name == entry.1) with
  | none => .error .misshapen
  | some part => if part.isRead state then .error .misshapen else look part.name state entry.2

/-- What the items of a list add to the parts that are known. -/
def ofItems (look : String → σ → Value → Except Fault σ) (state : σ) :
    List (Part σ) → List Value → Except Fault σ
  | _, [] => .ok state
  | [], _ :: _ => .error .malformed
  | part :: parts, item :: items =>
    look part.name state item >>= fun state => ofItems look state parts items

/-- The value of a record whose parts are known. -/
def complete (record : Record σ α) (state : σ) : Except Fault α :=
  match record.finish state with
  | none => .error .misshapen
  | some a => .ok a

/-- The record that a value stands for. -/
def ofValue (record : Record σ α) (look : String → σ → Value → Except Fault σ) :
    Value → Except Fault α
  | .object entries => entries.foldlM (record.ofMember look) record.initial >>= record.complete
  | .list items => ofItems look record.initial record.parts items >>= record.complete
  | _ => .error .misshapen

/-! ## Reading records -/

section Reading

variable {record : Record σ α} {look : String → σ → Value → Except Fault σ} {levels : Nat}

/-- At the end of a record nothing more is read. -/
theorem run_value (state : σ) (cs : List Char) :
    run (record.value state) cs = record.complete state >>= fun a => .ok (a, cs) := by
  unfold value complete
  cases record.finish state <;> rfl

section Parts

variable {state : σ} {part : Part σ} {parts : List (Part σ)} {c : Char} {cs ds : List Char}

/-- Where the list ends, the parts that are left are missing. -/
theorem run_readParts_closed {isFirst : Bool} (h : dropLayout cs = ']' :: ds) :
    run (readParts state isFirst (part :: parts)) cs = .ok (state, ds) := by
  simp [readParts, h]

/-- The first part is read without a comma. -/
theorem run_readParts_first (h : dropLayout cs = c :: ds) (hopen : c ≠ ']') :
    run (readParts state true (part :: parts)) cs = run (part.read state) (c :: ds) >>= fun p =>
      run (readParts p.1 false parts) p.2 := by
  rw [readParts, run_bind, run_peek, ok_bind, h]
  split
  · next hnone => cases hnone
  · next hsome => exact absurd (Option.some.inj hsome) hopen
  · simp

/-- Any other part is read behind a comma. -/
theorem run_readParts_later (h : dropLayout cs = c :: ds) (hopen : c ≠ ']') :
    run (readParts state false (part :: parts)) cs = run (char ',') (c :: ds) >>= fun comma =>
      run (part.read state) comma.2 >>= fun p => run (readParts p.1 false parts) p.2 := by
  rw [readParts, run_bind, run_peek, ok_bind, h]
  split
  · next hnone => cases hnone
  · next hsome => exact absurd (Option.some.inj hsome) hopen
  · simp

end Parts

/-- Where no part is to come, there may be no item. -/
theorem mirrors_surplus {first : Except Fault (Value × List Char)}
    {more : List Char → Except Fault (List Value × List Char)} {state : σ} :
    Mirrors (ofItems look state [])
      (first >>= fun p => more p.2 >>= fun q => .ok (p.1 :: q.1, q.2)) (.error .malformed) := by
  refine .of_refused fun items rest hitems => ?_
  obtain ⟨p, -, hitems⟩ := bind_eq_ok.mp hitems
  obtain ⟨q, -, hitems⟩ := bind_eq_ok.mp hitems
  cases hitems
  rfl

variable (hparts : ∀ part ∈ record.parts, ∀ state,
  (part.read state).Sees levels (look part.name state))

include hparts

/-- The members of an object are seen as they are read. -/
theorem membersSeen (hsurplus : record.surplus = .refused) :
    MembersSeen levels record.choose (record.ofMember look) where
  refused := by
    intro state key fault hchoose v
    cases hfind : record.parts.find? (·.name == key) with
    | none =>
      simp only [choose, hfind, hsurplus] at hchoose
      cases hchoose
      simp only [ofMember, hfind]
    | some part =>
      simp only [choose, hfind] at hchoose
      split at hchoose
      · next hread =>
        cases hchoose
        simp only [ofMember, hfind, if_pos hread]
      · cases hchoose
  sees := by
    intro state key read hchoose
    cases hfind : record.parts.find? (·.name == key) with
    | none =>
      simp only [choose, hfind, hsurplus] at hchoose
      cases hchoose
    | some part =>
      simp only [choose, hfind] at hchoose
      split at hchoose
      · cases hchoose
      · next hread =>
        cases hchoose
        simp only [ofMember, hfind, if_neg hread]
        exact hparts part (List.mem_of_find?_eq_some hfind) state

/-- One item is read as a part, then the others as the parts after it. -/
theorem mirrors_part {part : Part σ} {parts : List (Part σ)} (hpart : part ∈ record.parts)
    (hmore : ∀ state cs, Mirrors (ofItems look state parts)
      (run (later (Reader.value .kept levels)) cs) (run (readParts state false parts) cs))
    (state : σ) (cs : List Char) :
    Mirrors (ofItems look state (part :: parts))
      (run (Reader.value .kept levels) cs >>= fun p =>
        run (later (Reader.value .kept levels)) p.2 >>= fun q => .ok (p.1 :: q.1, q.2))
      (run (part.read state) cs >>= fun p => run (readParts p.1 false parts) p.2) := by
  refine (hparts part hpart state cs).bind fun v rest _ => Mirrors.wrap ?_
  simp only [ofItems]
  cases look part.name state v with
  | error fault => exact .of_refused fun _ _ _ => rfl
  | ok state => exact hmore state rest

/-- The rest of a list is read as the parts that are still to come. -/
theorem mirrors_laterParts (parts : List (Part σ)) (hsub : parts ⊆ record.parts) (state : σ)
    (cs : List Char) :
    Mirrors (ofItems look state parts) (run (later (Reader.value .kept levels)) cs)
      (run (readParts state false parts) cs) := by
  induction parts generalizing state cs with
  | nil =>
    rw [run_later, readParts, run_bind, run_mark]
    cases hcs : dropLayout cs with
    | nil => exact ⟨_, rfl⟩
    | cons c ds =>
      dsimp only
      split
      · next hclosed =>
        subst hclosed
        rw [run_char_self]
        exact rfl
      · next hopen =>
        rw [run_char_cons, if_neg hopen]
        split
        · exact mirrors_surplus
        · exact ⟨_, rfl⟩
  | cons part parts ih =>
    rw [run_later]
    cases hcs : dropLayout cs with
    | nil =>
      refine ⟨.truncated, ?_⟩
      simp [readParts, hcs]
    | cons c ds =>
      dsimp only
      split
      · next hclosed =>
        subst hclosed
        rw [run_readParts_closed hcs]
        exact rfl
      next hopen =>
      rw [run_readParts_later hcs hopen, run_char_cons]
      split
      · exact mirrors_part hparts (hsub List.mem_cons_self)
          (ih (List.subset_of_cons_subset hsub)) state ds
      · exact ⟨_, rfl⟩

/-- The items of a list are seen as the parts are read. -/
theorem mirrors_parts (parts : List (Part σ)) (hsub : parts ⊆ record.parts) (state : σ)
    (cs : List Char) :
    Mirrors (ofItems look state parts) (run (elements (Reader.value .kept levels)) cs)
      (run (readParts state true parts) cs) := by
  cases hcs : dropLayout cs with
  | nil =>
    have hwhole : run (elements (Reader.value .kept levels)) cs = .error .truncated := by
      rw [run_elements (by simp [hcs]), run_value_dropLayout, run_value_nil hcs, error_bind]
    rw [hwhole]
    exact ⟨.truncated, by cases parts <;> simp [readParts, hcs]⟩
  | cons c ds =>
    by_cases hclosed : c = ']'
    · subst hclosed
      rw [run_elements_nil hcs]
      cases parts with
      | nil =>
        rw [readParts, run_bind, run_mark, hcs, run_char_self]
        exact rfl
      | cons part parts =>
        rw [run_readParts_closed hcs]
        exact rfl
    · rw [run_elements (by simpa [hcs] using hclosed), hcs]
      cases parts with
      | nil =>
        rw [readParts, run_bind, run_mark, hcs, run_char_cons, if_neg hclosed]
        exact mirrors_surplus
      | cons part parts =>
        rw [run_readParts_first hcs hclosed]
        exact mirrors_part hparts (hsub List.mem_cons_self)
          (mirrors_laterParts hparts parts (List.subset_of_cons_subset hsub)) state (c :: ds)

/-- A record is seen in the value that it is read from. -/
theorem sees_read (hsurplus : record.surplus = .refused) :
    record.read.Sees (levels + 1) (record.ofValue look) := by
  refine sees_of_peek fun cs hcs => ?_
  split
  · next hbrace =>
    obtain ⟨ds, rfl⟩ := List.head?_eq_some_iff.mp hbrace
    rw [run_value_object hcs, run_bind, run_char_self, ok_bind, run_bind]
    refine ((membersSeen hparts hsurplus).mirrors_members ds).bind fun entries rest _ => ?_
    change _ = _ >>= _
    simp only [run_value, ofValue, bind_assoc]
  · next hbracket =>
    obtain ⟨ds, rfl⟩ := List.head?_eq_some_iff.mp hbracket
    rw [run_value_list hcs, run_bind, run_char_self, ok_bind, run_bind]
    refine (mirrors_parts hparts record.parts (List.Subset.refl _) _ ds).bind fun items rest _ => ?_
    change _ = _ >>= _
    simp only [run_value, ofValue, bind_assoc]
  · next hbrace hbracket =>
    refine mirrors_mismatch fun v c hhead hbegins => ?_
    rw [hcs] at hhead
    cases v <;> simp_all [Value.begins, ofValue]

end Reading

end Record

end FilterScope.Json
