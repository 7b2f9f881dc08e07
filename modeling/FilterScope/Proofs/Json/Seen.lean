import FilterScope.Proofs.Json.Value

/-!
# Reading a document directly, and reading it as a whole

A document is read straight into what it describes. It could also be read as a whole, as a `Value`,
and looked at afterwards; nothing but the fault of a wrong document would tell the difference.

* `Mirrors look whole direct` compares two outcomes at one place of a text. Where the whole value
  can be read, reading directly gives what a look at it gives. Where it cannot, reading directly
  fails too, with a fault of its own.
* `read.Sees levels look` says so of a reader at every place of every text, for values nested up
  to `levels` deep.

A reader that fails in the middle of a value leaves the rest of it unread, while the whole value may
go on. So the comparison is not of two readers step by step: once one look has failed, whatever
value is still read leads to the same failure (`Mirrors.of_refused`).
-/

namespace FilterScope.Json

open Text

variable {α β γ δ σ : Type}

/-! ## Comparing outcomes -/

/-- Reading directly gives what looking at the whole gives, and fails where the whole cannot be
read. -/
def Mirrors (look : α → Except Fault β) :
    (whole : Except Fault (α × List Char)) → (direct : Except Fault (β × List Char)) → Prop
  | .error _, direct => ∃ fault, direct = .error fault
  | .ok (a, rest), direct => direct = look a >>= fun b => .ok (b, rest)

namespace Mirrors

variable {look : α → Except Fault β} {look' : γ → Except Fault δ}
  {whole : Except Fault (α × List Char)} {direct : Except Fault (β × List Char)}

/-- A direct reading may fail as soon as every value that can still be read is refused. -/
theorem of_refused {fault : Fault} (h : ∀ a rest, whole = .ok (a, rest) → look a = .error fault) :
    Mirrors look whole (.error fault) := by
  cases whole with
  | error other => exact ⟨fault, rfl⟩
  | ok p =>
    change _ = _ >>= _
    rw [h p.1 p.2 rfl, Reader.error_bind]

/-- Two readings that go on from where a value ends, the direct one with what a look at the value
gives. -/
theorem bind {whole' : α × List Char → Except Fault (γ × List Char)}
    {direct' : β × List Char → Except Fault (δ × List Char)} (h : Mirrors look whole direct)
    (hnext : ∀ a rest, whole = .ok (a, rest) →
      Mirrors look' (whole' (a, rest)) (look a >>= fun b => direct' (b, rest))) :
    Mirrors look' (whole >>= whole') (direct >>= direct') := by
  cases whole with
  | error fault =>
    obtain ⟨other, rfl⟩ := h
    exact ⟨other, rfl⟩
  | ok p =>
    obtain ⟨a, rest⟩ := p
    obtain rfl := h
    have hmirrors := hnext a rest rfl
    cases hlook : look a with
    | error fault =>
      rw [hlook] at hmirrors
      exact hmirrors
    | ok b =>
      rw [hlook] at hmirrors
      exact hmirrors

/-- A value that is read as part of another one. -/
theorem wrap {f : α → γ} {look : γ → Except Fault β}
    (h : Mirrors (fun a => look (f a)) whole direct) :
    Mirrors look (whole >>= fun p => .ok (f p.1, p.2)) direct := by
  cases whole with
  | error fault => exact h
  | ok p => exact h

/-- What is seen is changed after the fact. -/
theorem map (f : β → δ) (h : Mirrors look whole direct) :
    Mirrors (fun a => f <$> look a) whole (direct >>= fun p => .ok (f p.1, p.2)) := by
  cases whole with
  | error fault =>
    obtain ⟨other, rfl⟩ := h
    exact ⟨other, rfl⟩
  | ok p =>
    obtain rfl := h
    change _ >>= _ = _ >>= _
    dsimp only
    cases look p.1 <;> rfl

theorem congr {other : α → Except Fault β} (h : Mirrors look whole direct)
    (hlook : ∀ a rest, whole = .ok (a, rest) → other a = look a) :
    Mirrors other whole direct := by
  cases whole with
  | error fault => exact h
  | ok p =>
    change _ = _ >>= _
    rw [hlook p.1 p.2 rfl]
    exact h

end Mirrors

/-- At every place, a reader gives what looking at the whole value there gives. -/
def Reader.Sees (read : Reader α) (levels : Nat) (look : Value → Except Fault α) : Prop :=
  ∀ cs, Mirrors look (run (value .kept levels) cs) (run read cs)

/-! ## Looking at values -/

namespace Value

/-- The text of a string. -/
def asText : Value → Except Fault String
  | .text s => .ok s
  | _ => .error .misshapen

/-- What a value is that may be `null` instead. -/
def asOption (look : Value → Except Fault α) : Value → Except Fault (Option α)
  | .null => .ok none
  | v => some <$> look v

/-- What the items of a list are. -/
def asList (look : Value → Except Fault α) : Value → Except Fault (List α)
  | .list items => items.mapM look
  | _ => .error .misshapen

/-- What the members of an object make of a state, one after the other. -/
def asObject (look : σ → String × Value → Except Fault σ) (initial : σ) : Value → Except Fault σ
  | .object entries => entries.foldlM look initial
  | _ => .error .misshapen

end Value

namespace Reader

/-! ## Values of an expected kind -/

section Kinds

variable {levels : Nat} {cs : List Char}

/-- Complaining about the kind of a value is right where no value of that kind begins. -/
theorem mirrors_mismatch {look : Value → Except Fault α}
    (h : ∀ v c, (dropLayout cs).head? = some c → v.begins c = true → look v = .error .misshapen) :
    Mirrors look (run (value .kept levels) cs) (run mismatch cs) := by
  have hlook (v : Value) (rest : List Char) (hrun : run (value .kept levels) cs = .ok (v, rest)) :
      look v = .error .misshapen := by
    obtain ⟨c, hcs, hbegins⟩ := exists_begins_of_run hrun
    exact h v c hcs hbegins
  by_cases hnested : (dropLayout cs).head? = some '[' ∨ (dropLayout cs).head? = some '\x7b'
  · have hmismatch : run (mismatch : Reader α) cs = .error .misshapen := by
      rcases hnested with hhead | hhead <;> simp [mismatch, hhead]
    rw [hmismatch]
    exact .of_refused hlook
  · obtain ⟨hbracket, hbrace⟩ := not_or.mp hnested
    have hmismatch : run (mismatch : Reader α) cs =
        run (value .kept levels) cs >>= fun _ => .error .misshapen := by
      rw [run_value_levels hbracket hbrace, mismatch, run_bind, run_peek, ok_bind]
      split
      · contradiction
      · contradiction
      · rw [run_bind, run_value_dropLayout]
        rfl
    rw [hmismatch]
    cases hrun : run (value .kept levels) cs with
    | error fault => exact ⟨fault, rfl⟩
    | ok p => exact .of_refused fun v rest hp => hlook v rest (hrun.trans hp)

/-- Readers skip white space and look at what comes next. -/
theorem sees_of_peek {look : Value → Except Fault α} {read : Option Char → Reader α}
    (h : ∀ cs, dropLayout cs = cs →
      Mirrors look (run (value .kept levels) cs) (run (read cs.head?) cs)) :
    (peek >>= read).Sees levels look := by
  intro cs
  rw [run_bind, run_peek, ok_bind, ← run_value_dropLayout]
  exact h _ (dropLayout_dropLayout cs)

/-- A string is seen in a text. -/
theorem sees_string (levels : Nat) : string.Sees levels Value.asText := by
  refine sees_of_peek fun cs hcs => ?_
  split
  · next hquote =>
    obtain ⟨ds, rfl⟩ := List.head?_eq_some_iff.mp hquote
    rw [run_value_text hcs]
    cases run (quoted .kept) ('"' :: ds) with
    | error fault => exact ⟨fault, rfl⟩
    | ok p => rfl
  · next hquote =>
    refine mirrors_mismatch fun v c hhead hbegins => ?_
    rw [hcs] at hhead
    cases v <;> simp_all [Value.begins, Value.asText]

/-- A value that may be `null` is seen as one that may not, at every other place. -/
theorem Sees.optional {read : Reader α} {look : Value → Except Fault α}
    (h : read.Sees levels look) : (optional read).Sees levels (Value.asOption look) := by
  refine sees_of_peek fun cs hcs => ?_
  split
  · next hnull =>
    obtain ⟨ds, rfl⟩ := List.head?_eq_some_iff.mp hnull
    have hscalar : scalar .kept 'n' = word := rfl
    have hword : run word ('n' :: ds) =
        run (exactly ['n', 'u', 'l', 'l']) ('n' :: ds) >>= fun p => .ok (.null, p.2) := by
      rw [word, run_bind]
      exact run_bind _ _ _
    have hdirect : run null ('n' :: ds) = run (exactly ['n', 'u', 'l', 'l']) ('n' :: ds) := by
      simp [null, hcs]
    rw [run_value_scalar hcs rfl, hscalar, hword, run_bind, hdirect]
    cases run (exactly ['n', 'u', 'l', 'l']) ('n' :: ds) with
    | error fault => exact ⟨fault, rfl⟩
    | ok p => rfl
  · next hnull =>
    rw [run_map]
    refine ((h cs).map some).congr fun v rest hrun => ?_
    have hnot : v ≠ .null := by
      rintro rfl
      obtain ⟨c, hhead, hbegins⟩ := exists_begins_of_run hrun
      rw [hcs] at hhead
      simp_all [Value.begins]
    cases v <;> first | rfl | contradiction

/-- What is read is changed after the fact. -/
theorem Sees.map {read : Reader α} {look : Value → Except Fault α} (f : α → β)
    (h : read.Sees levels look) : (f <$> read).Sees levels fun v => f <$> look v := by
  intro cs
  rw [run_map]
  exact (h cs).map f

section Elements

variable {read : Reader α} {look : Value → Except Fault α}

/-- One element is read, then the others. -/
theorem mirrors_cons {v : Value} {rest : List Char}
    (hlater : Mirrors (List.mapM look) (run (later (value .kept levels)) rest)
      (run (later read) rest)) :
    Mirrors (List.mapM look)
      (run (later (value .kept levels)) rest >>= fun q => .ok (v :: q.1, q.2))
      (look v >>= fun a => run (later read) rest >>= fun q => .ok (a :: q.1, q.2)) := by
  refine .wrap ?_
  cases hlook : look v with
  | error fault => exact .of_refused fun vs _ _ => by rw [List.mapM_cons, hlook, error_bind]
  | ok a =>
    have hcons (vs : List Value) : List.mapM look (v :: vs) = (a :: ·) <$> List.mapM look vs := by
      rw [List.mapM_cons, hlook, ok_bind]
      rfl
    simp only [hcons]
    exact hlater.map (a :: ·)

variable (h : read.Sees levels look)

include h

/-- What sees each value sees those behind commas. -/
theorem Sees.mirrors_later (cs : List Char) :
    Mirrors (List.mapM look) (run (later (value .kept levels)) cs) (run (later read) cs) := by
  induction hlength : cs.length using Nat.strong_induction_on generalizing cs with
  | _ n ih =>
    rw [run_later, run_later]
    cases hcs : dropLayout cs with
    | nil => exact ⟨_, rfl⟩
    | cons c ds =>
      dsimp only
      split
      · exact rfl
      split
      · refine (h ds).bind fun v rest hrun => mirrors_cons (ih rest.length ?_ rest rfl)
        have hds := length_lt_of_dropLayout hcs
        have hrest := length_le_of_run hrun
        omega
      · exact ⟨_, rfl⟩

/-- What sees each value sees the elements of a list. -/
theorem Sees.mirrors_elements (cs : List Char) :
    Mirrors (List.mapM look) (run (elements (value .kept levels)) cs) (run (elements read) cs) := by
  by_cases hclosed : (dropLayout cs).head? = some ']'
  · obtain ⟨ds, hcs⟩ := List.head?_eq_some_iff.mp hclosed
    rw [run_elements_nil hcs, run_elements_nil hcs]
    exact rfl
  · rw [run_elements hclosed, run_elements hclosed]
    exact (h _).bind fun v rest _ => mirrors_cons (h.mirrors_later rest)

/-- What sees each value sees a list of them, one level deeper. -/
theorem Sees.list : (list read).Sees (levels + 1) (Value.asList look) := by
  refine sees_of_peek fun cs hcs => ?_
  split
  · next hbracket =>
    obtain ⟨ds, rfl⟩ := List.head?_eq_some_iff.mp hbracket
    rw [run_value_list hcs, run_bind, run_char_self, ok_bind]
    exact .wrap (h.mirrors_elements ds)
  · next hbracket =>
    refine mirrors_mismatch fun v c hhead hbegins => ?_
    rw [hcs] at hhead
    cases v <;> simp_all [Value.begins, Value.asList]

end Elements

end Kinds

/-! ## Members of objects -/

section Members

variable {levels : Nat} {choose : σ → String → Except Fault (Reader σ)}
  {look : σ → String × Value → Except Fault σ} {initial : σ}

/-- The readers of members see what a look at each member sees, refusals of keys included. -/
structure MembersSeen (levels : Nat) (choose : σ → String → Except Fault (Reader σ))
    (look : σ → String × Value → Except Fault σ) : Prop where
  /-- a key that is refused is refused with any value -/
  refused : ∀ {state key fault}, choose state key = .error fault →
    ∀ v, look state (key, v) = .error fault
  /-- the value of a key that is not is seen -/
  sees : ∀ {state key read}, choose state key = .ok read →
    read.Sees levels fun v => look state (key, v)

variable (h : MembersSeen levels choose look)

include h

/-- Behind the key of a member its value is looked at, unless the key is refused. -/
theorem MembersSeen.mirrors_afterKey {entries : List (String × Value)} {state : σ}
    (hbefore : List.foldlM look initial entries = .ok state) (key : String) (cs : List Char) :
    Mirrors (List.foldlM look initial)
      (run (mark ':') cs >>= fun colon => run (value .kept levels) colon.2 >>= fun p =>
        .ok (entries ++ [(key, p.1)], p.2))
      (choose state key >>= fun read => run (mark ':') cs >>= fun colon => run read colon.2) := by
  have hmember (v : Value) :
      List.foldlM look initial (entries ++ [(key, v)]) = look state (key, v) := by
    rw [List.foldlM_append, hbefore, ok_bind, List.foldlM_cons]
    exact bind_pure _
  cases hchoose : choose state key with
  | error fault =>
    refine .of_refused fun more rest hmore => ?_
    obtain ⟨colon, -, hmore⟩ := bind_eq_ok.mp hmore
    obtain ⟨p, -, hmore⟩ := bind_eq_ok.mp hmore
    cases hmore
    rw [hmember, h.refused hchoose]
  | ok read =>
    rw [ok_bind]
    cases run (mark ':') cs with
    | error fault => exact ⟨fault, rfl⟩
    | ok colon =>
      refine Mirrors.wrap (f := fun v => entries ++ [(key, v)]) ?_
      exact (h.sees hchoose colon.2).congr fun v _ _ => hmember v

/-- One more member is looked at after the ones before it. -/
theorem MembersSeen.mirrors_member (entries : List (String × Value)) (cs : List Char) :
    Mirrors (List.foldlM look initial) (run (entry levels entries) cs)
      (List.foldlM look initial entries >>= fun state =>
        run (member .kept (choose state)) cs) := by
  rw [run_entry]
  simp only [run_member]
  cases hbefore : List.foldlM look initial entries with
  | error fault =>
    -- an earlier member was refused, and the one that is read now does not change that
    refine .of_refused fun more rest hmore => ?_
    obtain ⟨key, -, hmore⟩ := bind_eq_ok.mp hmore
    obtain ⟨colon, -, hmore⟩ := bind_eq_ok.mp hmore
    obtain ⟨p, -, hmore⟩ := bind_eq_ok.mp hmore
    cases hmore
    rw [List.foldlM_append, hbefore, error_bind]
  | ok state =>
    rw [ok_bind]
    cases run (quoted .kept) (dropLayout cs) with
    | error fault => exact ⟨fault, rfl⟩
    | ok key => exact h.mirrors_afterKey hbefore key.1 key.2

/-- What sees each member sees those behind commas. -/
theorem MembersSeen.mirrors_laterMembers (entries : List (String × Value)) (cs : List Char) :
    Mirrors (List.foldlM look initial) (run (laterMembers (entry levels) entries) cs)
      (List.foldlM look initial entries >>= fun state =>
        run (laterMembers (fun state => member .kept (choose state)) state) cs) := by
  induction hlength : cs.length using Nat.strong_induction_on generalizing entries cs with
  | _ n ih =>
    have hround (state : σ) := run_laterMembers (fun state => member .kept (choose state)) state cs
    rw [run_laterMembers]
    simp only [hround]
    cases hcs : dropLayout cs with
    | nil => exact exists_bind_error _ _
    | cons c ds =>
      dsimp only
      split
      · exact rfl
      split
      · rw [← bind_assoc]
        refine (h.mirrors_member entries ds).bind fun entries rest hrun =>
          ih rest.length ?_ entries rest rfl
        have hds := length_lt_of_dropLayout hcs
        have hrest := length_le_of_run hrun
        omega
      · exact exists_bind_error _ _

/-- What sees each member sees the members of an object. -/
theorem MembersSeen.mirrors_members (cs : List Char) :
    Mirrors (List.foldlM look initial) (run (members (entry levels) []) cs)
      (run (members (fun state => member .kept (choose state)) initial) cs) := by
  by_cases hclosed : (dropLayout cs).head? = some '\x7d'
  · obtain ⟨ds, hcs⟩ := List.head?_eq_some_iff.mp hclosed
    rw [run_members_nil hcs, run_members_nil hcs]
    exact rfl
  · rw [run_members hclosed, run_members hclosed]
    exact (h.mirrors_member [] _).bind fun entries rest _ => h.mirrors_laterMembers entries rest

/-- What sees each member sees an object of them, one level deeper. -/
theorem MembersSeen.object :
    (object choose initial).Sees (levels + 1) (Value.asObject look initial) := by
  refine sees_of_peek fun cs hcs => ?_
  split
  · next hbrace =>
    obtain ⟨ds, rfl⟩ := List.head?_eq_some_iff.mp hbrace
    rw [run_value_object hcs, run_bind, run_char_self, ok_bind]
    exact .wrap (h.mirrors_members ds)
  · next hbrace =>
    refine mirrors_mismatch fun v c hhead hbegins => ?_
    rw [hcs] at hhead
    cases v <;> simp_all [Value.begins, Value.asObject]

end Members

/-! ## Whole documents -/

section Documents

variable {read : Reader α} {levels : Nat} {look : Value → Except Fault α} {text : String}

/-- A document that can be read as a whole is what a look at the whole finds. -/
theorem Sees.document_eq (h : read.Sees levels look) {v : Value}
    (hwhole : document (value .kept levels) text = .ok v) : document read text = look v := by
  rw [Reader.document_eq] at hwhole ⊢
  obtain ⟨p, hrun, hrest⟩ := bind_eq_ok.mp hwhole
  have hmirrors := h text.toList
  rw [hrun] at hmirrors
  split at hrest
  · next hempty =>
    cases hrest
    rw [hmirrors]
    cases look p.1 with
    | error fault => rfl
    | ok a => exact if_pos hempty
  · cases hrest

/-- A document that can be read can be read as a whole. -/
theorem Sees.exists_whole (h : read.Sees levels look) {a : α}
    (hread : document read text = .ok a) : ∃ v, document (value .kept levels) text = .ok v := by
  rw [Reader.document_eq] at hread
  obtain ⟨p, hrun, hrest⟩ := bind_eq_ok.mp hread
  have hmirrors := h text.toList
  rw [hrun] at hmirrors
  cases hwhole : run (value .kept levels) text.toList with
  | error fault =>
    rw [hwhole] at hmirrors
    obtain ⟨other, hother⟩ := hmirrors
    cases hother
  | ok q =>
    rw [hwhole] at hmirrors
    obtain ⟨b, -, hb⟩ := bind_eq_ok.mp hmirrors.symm
    cases hb
    split at hrest
    · next hempty =>
      refine ⟨q.1, ?_⟩
      rw [Reader.document_eq, hwhole, ok_bind]
      exact if_pos hempty
    · cases hrest

end Documents

end Reader

end FilterScope.Json
