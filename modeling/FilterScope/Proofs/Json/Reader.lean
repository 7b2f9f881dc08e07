import FilterScope.Json.Reader
import FilterScope.Proofs.Text.Reading

/-!
# What readers of documents do

A reading carries a bound on the text it leaves. Readers need it to call each other, but two readers
cannot be compared through it. `Reader.run` gives the value and the rest without the bound, and the
equations below say what it is for each way of making a reader: a chain of readers is a chain of
their runs (`run_bind`), and the loops over elements and members are unrolled by one round
(`run_later`, `run_laterMembers`).
-/

namespace FilterScope.Json.Reader

open Text

variable {α β σ : Type}

@[simp] theorem ok_bind (a : α) (f : α → Except Fault β) : (Except.ok a >>= f) = f a :=
  rfl

@[simp] theorem error_bind (fault : Fault) (f : α → Except Fault β) :
    (Except.error fault >>= f) = .error fault :=
  rfl

/-- A chain succeeds if and only if each of its steps does. -/
theorem bind_eq_ok {outcome : Except Fault α} {f : α → Except Fault β} {b : β} :
    (outcome >>= f) = .ok b ↔ ∃ a, outcome = .ok a ∧ f a = .ok b := by
  cases outcome with
  | error fault => simp
  | ok a => simp

/-- What ends with a fault fails, with that fault or an earlier one. -/
theorem exists_bind_error (outcome : Except Fault α) (fault : Fault) :
    ∃ other, (outcome >>= fun _ => (.error fault : Except Fault β)) = .error other := by
  cases outcome with
  | error other => exact ⟨other, rfl⟩
  | ok a => exact ⟨fault, rfl⟩

/-- What a reader gives, and the text it leaves. -/
def run (read : Reader α) (cs : List Char) : Except Fault (α × List Char) :=
  (read cs).map fun r => (r.value, r.rest)

/-- A reader leaves at most the text it was given. -/
theorem length_le_of_run {read : Reader α} {cs rest : List Char} {a : α}
    (h : run read cs = .ok (a, rest)) : rest.length ≤ cs.length := by
  unfold run at h
  cases hread : read cs with
  | error fault =>
    rw [hread] at h
    cases h
  | ok r =>
    rw [hread] at h
    cases h
    exact Nat.le_of_lt_succ r.bound

/-- Behind a visible character there is less text. -/
theorem length_lt_of_dropLayout {c : Char} {cs rest : List Char} (h : dropLayout cs = c :: rest) :
    rest.length < cs.length := by
  have hle := length_dropLayout_le cs
  rw [h] at hle
  exact hle

/-! ## Single steps -/

section Steps

variable (cs : List Char)

@[simp] theorem run_pure (a : α) : run (pure a : Reader α) cs = .ok (a, cs) :=
  rfl

@[simp] theorem run_fail (fault : Fault) : run (fail fault : Reader α) cs = .error fault :=
  rfl

@[simp] theorem run_bind (read : Reader α) (next : α → Reader β) :
    run (read >>= next) cs = run read cs >>= fun p => run (next p.1) p.2 := by
  change run (Reader.bind read next) cs = _
  unfold run Reader.bind
  cases hread : read cs with
  | error fault => rfl
  | ok first =>
    cases hnext : next first.value first.rest with
    | error fault => simp [Except.map, bind, Except.bind, hnext]
    | ok second => simp [Except.map, bind, Except.bind, hnext, Reading.andThen]

@[simp] theorem run_map (f : α → β) (read : Reader α) :
    run (f <$> read) cs = run read cs >>= fun p => .ok (f p.1, p.2) :=
  run_bind cs read fun a => pure (f a)

@[simp] theorem run_ofExcept (outcome : Except Fault α) :
    run (ofExcept outcome) cs = outcome.map (·, cs) := by
  cases outcome <;> rfl

@[simp] theorem run_peek : run peek cs = .ok ((dropLayout cs).head?, dropLayout cs) :=
  rfl

@[simp] theorem run_char_nil (c : Char) : run (char c) [] = .error .truncated :=
  rfl

theorem run_char_cons (c d : Char) :
    run (char c) (d :: cs) = if d = c then .ok ((), cs) else .error .malformed := by
  simp only [run, char]
  split <;> rfl

@[simp] theorem run_char_self (c : Char) : run (char c) (c :: cs) = .ok ((), cs) := by
  rw [run_char_cons, if_pos rfl]

@[simp] theorem run_mark (c : Char) : run (mark c) cs = run (char c) (dropLayout cs) := by
  rw [mark, run_bind]
  rfl

/-- A reader that gives a fixed value at its end gives that value. -/
theorem eq_of_run_pure {cs rest : List Char} {read : Reader α} {b b' : β}
    (h : run (read >>= fun _ => pure b) cs = .ok (b', rest)) : b' = b := by
  rw [run_bind] at h
  obtain ⟨p, -, hp⟩ := bind_eq_ok.mp h
  exact (congrArg Prod.fst (Except.ok.inj hp)).symm

end Steps

/-! ## Lists and objects -/

/-- The elements of a list after its first one. -/
def later (read : Reader α) : Reader (List α) := fun cs =>
  (moreElements read cs).map (·.weaken)

/-- The members of an object after its first one. -/
def laterMembers (read : σ → Reader σ) (state : σ) : Reader σ := fun cs =>
  (moreMembers read state cs).map (·.weaken)

theorem elements_eq (read : Reader α) :
    elements read = peek >>= fun c => match c with
      | some ']' => char ']' >>= fun _ => pure []
      | _ => read >>= fun first => later read >>= fun more => pure (first :: more) :=
  rfl

theorem members_eq (read : σ → Reader σ) (state : σ) :
    members read state = peek >>= fun c => match c with
      | some '\x7d' => char '\x7d' >>= fun _ => pure state
      | _ => read state >>= laterMembers read :=
  rfl

section Loops

variable {cs rest : List Char}

theorem run_elements_nil {read : Reader α} (h : dropLayout cs = ']' :: rest) :
    run (elements read) cs = .ok ([], rest) := by
  simp [elements_eq, h]

/-- Otherwise an element is read, and those behind it. -/
theorem run_elements {read : Reader α} (h : (dropLayout cs).head? ≠ some ']') :
    run (elements read) cs = run read (dropLayout cs) >>= fun p =>
      run (later read) p.2 >>= fun q => .ok (p.1 :: q.1, q.2) := by
  rw [elements_eq, run_bind, run_peek, ok_bind]
  split
  · contradiction
  · simp only [run_bind, run_pure]

theorem run_members_nil {read : σ → Reader σ} {state : σ} (h : dropLayout cs = '\x7d' :: rest) :
    run (members read state) cs = .ok (state, rest) := by
  simp [members_eq, h]

/-- Otherwise a member is read, and those behind it. -/
theorem run_members {read : σ → Reader σ} {state : σ} (h : (dropLayout cs).head? ≠ some '\x7d') :
    run (members read state) cs = run (read state) (dropLayout cs) >>= fun p =>
      run (laterMembers read p.1) p.2 := by
  rw [members_eq, run_bind, run_peek, ok_bind]
  split
  · contradiction
  · rw [run_bind]

/-- One round of the loop over elements. -/
theorem run_later (read : Reader α) (cs : List Char) :
    run (later read) cs = match dropLayout cs with
      | [] => .error .truncated
      | c :: rest =>
        if c = ']' then .ok ([], rest)
        else if c = ',' then
          run read rest >>= fun p => run (later read) p.2 >>= fun q => .ok (p.1 :: q.1, q.2)
        else .error .malformed := by
  unfold run later
  rw [moreElements]
  cases hcs : visible? cs with
  | none => simp [dropLayout_of_visible?_eq_none hcs, Except.map]
  | some c =>
    rw [dropLayout_of_visible? hcs]
    dsimp only
    split
    · rfl
    split
    · cases hread : read c.rest with
      | error fault => simp [Except.map]
      | ok first =>
        cases hmore : moreElements read first.rest with
        | error fault => simp [Except.map, hmore]
        | ok more => simp [Except.map, hmore, Reading.weaken, Reading.andThen, Reading.map]
    · rfl

/-- One round of the loop over members. -/
theorem run_laterMembers (read : σ → Reader σ) (state : σ) (cs : List Char) :
    run (laterMembers read state) cs = match dropLayout cs with
      | [] => .error .truncated
      | c :: rest =>
        if c = '\x7d' then .ok (state, rest)
        else if c = ',' then run (read state) rest >>= fun p => run (laterMembers read p.1) p.2
        else .error .malformed := by
  unfold run laterMembers
  rw [moreMembers]
  cases hcs : visible? cs with
  | none => simp [dropLayout_of_visible?_eq_none hcs, Except.map]
  | some c =>
    rw [dropLayout_of_visible? hcs]
    dsimp only
    split
    · rfl
    split
    · cases hread : read state c.rest with
      | error fault => simp [Except.map]
      | ok first =>
        cases hmore : moreMembers read first.value first.rest with
        | error fault => simp [Except.map, hmore]
        | ok more => simp [Except.map, hmore, Reading.weaken, Reading.andThen]
    · rfl

end Loops

/-! ## Whole documents -/

/-- Behind a document there may be nothing but layout. -/
theorem document_eq (read : Reader α) (text : String) :
    document read text = run read text.toList >>= fun p =>
      if (dropLayout p.2).isEmpty then .ok p.1 else .error .malformed := by
  unfold document run
  cases read text.toList <;> rfl

end FilterScope.Json.Reader
