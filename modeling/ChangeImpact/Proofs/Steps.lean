/-!
# How steps end

A step changes a state and may fail on the way.  `Ends` says of a step and the state it starts from
what holds if it succeeds and what holds if it fails, so one statement about a step serves three
questions: what it has done when it came through (`Ends.of_ok`), why it failed (`Ends.of_error`), and
that it cannot fail where none of the reasons is there (`Ends.succeeds`).

The rules follow the way in which steps are put together.  For the loops one names an invariant and
shows that a single round keeps it.  The invariant speaks of the items that are done and of what came of
them (`Ends.forM_done`, `Ends.mapM`, `Ends.filterM`), or of those that are still to be done
(`Ends.forM`).  Where the rounds only read the state no invariant has to be named (`Ends.mapM_read`,
`Ends.filterM_read`).
-/

namespace ChangeImpact

variable {ε σ α β ι : Type}

/-- How a step may end: with `good` of its value and the state after it, or with `bad` of its fault
and the state in which it failed. -/
def Ends (step : EStateM ε σ α) (before : σ) (good : α → σ → Prop) (bad : ε → σ → Prop) : Prop :=
  match step before with
  | .ok value after => good value after
  | .error fault after => bad fault after

instance Ends.decidable (step : EStateM ε σ α) (before : σ) (good : α → σ → Prop) (bad : ε → σ → Prop)
    [∀ value after, Decidable (good value after)] [∀ fault after, Decidable (bad fault after)] :
    Decidable (Ends step before good bad) :=
  match hstep : step before with
  | .ok value after => decidable_of_iff (good value after) (by rw [Ends, hstep])
  | .error fault after => decidable_of_iff (bad fault after) (by rw [Ends, hstep])

/-- The state after a step, whether or not it has come through. -/
def stateAfter (step : EStateM ε σ α) (before : σ) : σ :=
  match step before with
  | .ok _ after => after
  | .error _ after => after

/-- The fault of a step, if it fails. -/
def faultOf? (step : EStateM ε σ α) (before : σ) : Option ε :=
  match step before with
  | .ok _ _ => none
  | .error fault _ => some fault

theorem exists_of_faultOf?_eq_none {step : EStateM ε σ α} {before : σ}
    (h : faultOf? step before = none) :
    ∃ value, step before = .ok value (stateAfter step before) := by
  unfold faultOf? at h
  unfold stateAfter
  cases hstep : step before with
  | ok value after => exact ⟨value, rfl⟩
  | error fault after => simp [hstep] at h

theorem eq_error_of_faultOf? {step : EStateM ε σ α} {before : σ} {fault : ε}
    (h : faultOf? step before = some fault) :
    step before = .error fault (stateAfter step before) := by
  unfold faultOf? at h
  unfold stateAfter
  cases hstep : step before with
  | ok value after => simp [hstep] at h
  | error cause after =>
      rw [hstep] at h
      cases h
      rfl

/-! ## Loops without a state -/

section

variable {φ : Type} {items : List ι} {round : ι → Except ε Unit}

theorem then_eq_ok_iff {first second : Except ε Unit} :
    (first >>= fun _ => second) = .ok () ↔ first = .ok () ∧ second = .ok () := by
  cases first with
  | ok _ => simp [bind, Except.bind]
  | error fault => simp [bind, Except.bind]

theorem forM_cons_except (item : ι) (rest : List ι) :
    (item :: rest).forM round = (round item >>= fun _ => rest.forM round) := rfl

theorem forM_eq_ok_iff : items.forM round = .ok () ↔ ∀ item ∈ items, round item = .ok () := by
  induction items with
  | nil => exact iff_of_true rfl fun _ hitem => nomatch hitem
  | cons item rest ih => rw [forM_cons_except, then_eq_ok_iff, List.forall_mem_cons, ih]

theorem isOk_bind (first : Except ε Unit) (next : Unit → Except ε Unit) :
    (first >>= next).isOk = (first.isOk && (next ()).isOk) := by
  cases first with
  | ok _ => rfl
  | error fault => rfl

theorem isOk_forM (items : List ι) (round : ι → Except ε Unit) :
    (items.forM round).isOk = items.all fun item => (round item).isOk := by
  induction items with
  | nil => rfl
  | cons item rest ih => rw [List.all_cons, ← ih, forM_cons_except, isOk_bind]

/-- A loop that fails does so in one of its rounds. -/
theorem exists_of_forM_eq_error {fault : ε} (h : items.forM round = .error fault) :
    ∃ item ∈ items, round item = .error fault := by
  induction items with
  | nil => cases h
  | cons item rest ih =>
      rw [forM_cons_except] at h
      cases hround : round item with
      | ok _ =>
          rw [hround] at h
          obtain ⟨other, hother, hfault⟩ := ih h
          exact ⟨other, List.mem_cons_of_mem _ hother, hfault⟩
      | error first =>
          rw [hround] at h
          cases h
          exact ⟨item, List.mem_cons_self, hround⟩

/-- A loop whose rounds fail in other words fails in these words. -/
theorem forM_eq_mapError {other : ι → Except φ Unit} {words : ε → φ}
    (h : ∀ item ∈ items, other item = (round item).mapError words) :
    items.forM other = (items.forM round).mapError words := by
  induction items with
  | nil => rfl
  | cons item rest ih =>
      rw [forM_cons_except, forM_cons_except, h item List.mem_cons_self,
        ih fun other hother => h other (List.mem_cons_of_mem _ hother)]
      cases round item with
      | ok _ => rfl
      | error fault => rfl

end

/-! ## Steps that come through -/

section

variable {before after : σ}

theorem bind_eq_ok_iff {step : EStateM ε σ α} {next : α → EStateM ε σ β} {value : β} :
    (step >>= next) before = .ok value after ↔
      ∃ first state, step before = .ok first state ∧ next first state = .ok value after := by
  show EStateM.bind step next before = _ ↔ _
  unfold EStateM.bind
  cases step before with
  | ok first state =>
      constructor
      · exact fun h => ⟨first, state, rfl, h⟩
      · rintro ⟨_, _, heq, h⟩
        cases heq
        exact h
  | error fault state => simp

theorem bind_of_eq_ok {step : EStateM ε σ α} {next : α → EStateM ε σ β} {value : α}
    (h : step before = .ok value after) : (step >>= next) before = next value after := by
  simp only [bind, EStateM.bind, h]

theorem get_bind_eq (next : σ → EStateM ε σ β) (before : σ) :
    (get >>= next) before = next before before := rfl

theorem get_eq_ok_iff {value : σ} :
    (get : EStateM ε σ σ) before = .ok value after ↔ before = value ∧ before = after := by
  show EStateM.Result.ok before before = _ ↔ _
  rw [EStateM.Result.ok.injEq]

theorem pure_eq_ok_iff {value result : α} :
    (pure value : EStateM ε σ α) before = .ok result after ↔ value = result ∧ before = after := by
  show EStateM.Result.ok value before = _ ↔ _
  rw [EStateM.Result.ok.injEq]

end

namespace Ends

variable {step : EStateM ε σ α} {before : σ} {good : α → σ → Prop} {bad : ε → σ → Prop}

/-! ## Using an ending -/

theorem of_ok (h : Ends step before good bad) {value : α} {after : σ}
    (hok : step before = .ok value after) : good value after := by
  unfold Ends at h
  rwa [hok] at h

theorem of_error (h : Ends step before good bad) {fault : ε} {after : σ}
    (herror : step before = .error fault after) : bad fault after := by
  unfold Ends at h
  rwa [herror] at h

/-- A step for which there is no way to fail succeeds. -/
theorem succeeds (h : Ends step before good bad) (hbad : ∀ fault after, ¬ bad fault after) :
    ∃ value after, step before = .ok value after ∧ good value after := by
  cases hstep : step before with
  | ok value after => exact ⟨value, after, rfl, h.of_ok hstep⟩
  | error fault after => exact absurd (h.of_error hstep) (hbad fault after)

/-- What holds in either case holds of the state after the step. -/
theorem of_either {holds : σ → Prop} (h : Ends step before good bad)
    (hgood : ∀ value after, good value after → holds after)
    (hbad : ∀ fault after, bad fault after → holds after) : holds (stateAfter step before) := by
  unfold stateAfter
  cases hstep : step before with
  | ok value after => exact hgood value after (h.of_ok hstep)
  | error fault after => exact hbad fault after (h.of_error hstep)

theorem mono {good' : α → σ → Prop} {bad' : ε → σ → Prop} (h : Ends step before good bad)
    (hgood : ∀ value after, good value after → good' value after)
    (hbad : ∀ fault after, bad fault after → bad' fault after) : Ends step before good' bad' := by
  unfold Ends at h ⊢
  cases hstep : step before with
  | ok value after =>
      rw [hstep] at h
      exact hgood value after h
  | error fault after =>
      rw [hstep] at h
      exact hbad fault after h

theorem imp {good' : α → σ → Prop} (h : Ends step before good bad)
    (hgood : ∀ value after, good value after → good' value after) : Ends step before good' bad :=
  h.mono hgood fun _ _ hbad => hbad

/-- A step that cannot fail ends well among steps that can. -/
theorem total (h : Ends step before good fun _ _ => False) : Ends step before good bad :=
  h.mono (fun _ _ hgood => hgood) fun _ _ hbad => hbad.elim

/-! ## Putting steps together -/

theorem of_eq_ok {value : α} {after : σ} (hok : step before = .ok value after)
    (hgood : good value after) : Ends step before good bad := by
  unfold Ends
  rwa [hok]

theorem of_eq_error {fault : ε} {after : σ} (herror : step before = .error fault after)
    (hbad : bad fault after) : Ends step before good bad := by
  unfold Ends
  rwa [herror]

/-- Steps that do the same from their states end in the same way. -/
theorem of_eq {other : EStateM ε σ α} {start : σ} (heq : step before = other start)
    (h : Ends other start good bad) : Ends step before good bad := by
  unfold Ends at h ⊢
  rwa [heq]

theorem pure {value : α} (h : good value before) :
    Ends (Pure.pure value : EStateM ε σ α) before good bad := h

theorem bind {next : α → EStateM ε σ β} {good' : β → σ → Prop} (h : Ends step before good bad)
    (hnext : ∀ value after, good value after → Ends (next value) after good' bad) :
    Ends (step >>= next) before good' bad := by
  show match EStateM.bind step next before with
    | .ok value after => good' value after
    | .error fault after => bad fault after
  unfold EStateM.bind
  cases hstep : step before with
  | ok value after => exact hnext value after (h.of_ok hstep)
  | error fault after => exact h.of_error hstep

/-- A step that reads the state goes on with it. -/
theorem get_bind {next : σ → EStateM ε σ β} {good : β → σ → Prop}
    (h : Ends (next before) before good bad) : Ends (get >>= next) before good bad := h

theorem modified_bind {change : σ → σ} {next : PUnit → EStateM ε σ β} {good : β → σ → Prop}
    (h : Ends (next ⟨⟩) (change before) good bad) :
    Ends (modify change >>= next) before good bad := h

/-! ## Loops -/

theorem forM {round : ι → EStateM ε σ PUnit} (inv : List ι → σ → Prop)
    (hround : ∀ item rest state, inv (item :: rest) state →
      Ends (round item) state (fun _ after => inv rest after) bad)
    {items : List ι} (h : inv items before) :
    Ends (items.forM round) before (fun _ after => inv [] after) bad := by
  induction items generalizing before with
  | nil => exact h
  | cons item rest ih =>
      show Ends (round item >>= fun _ => rest.forM round) before _ bad
      exact (hround item rest before h).bind fun _ _ => ih

variable {items : List ι}

theorem forM_done {round : ι → EStateM ε σ PUnit} (inv : List ι → σ → Prop)
    (hround : ∀ done item rest state, items = done ++ item :: rest → inv done state →
      Ends (round item) state (fun _ after => inv (done ++ [item]) after) bad)
    (h : inv [] before) : Ends (items.forM round) before (fun _ after => inv items after) bad := by
  let left (rest : List ι) (state : σ) : Prop := ∃ done, items = done ++ rest ∧ inv done state
  refine (forM left ?_ ⟨[], rfl, h⟩).imp ?_
  · rintro item rest state ⟨done, hitems, hinv⟩
    refine (hround done item rest state hitems hinv).imp fun _ after hafter => ?_
    exact ⟨done ++ [item], by simp [hitems], hafter⟩
  · rintro _ after ⟨done, hitems, hinv⟩
    rw [List.append_nil] at hitems
    exact hitems ▸ hinv

/-- The invariant of `mapM` also sees the results of the rounds that are done. -/
theorem mapM {round : ι → EStateM ε σ α} (inv : List ι → List α → σ → Prop)
    (hround : ∀ done item rest results state, items = done ++ item :: rest →
      inv done results state →
      Ends (round item) state
        (fun value after => inv (done ++ [item]) (results ++ [value]) after) bad)
    (h : inv [] [] before) : Ends (items.mapM round) before (inv items) bad := by
  -- for every splitting into what is done and the rest, by induction on the rest
  have hrest : ∀ rest done results state, items = done ++ rest → inv done results state →
      Ends (rest.mapM round) state (fun values after => inv items (results ++ values) after) bad := by
    intro rest
    induction rest with
    | nil =>
        intro done results state hitems hinv
        rw [List.append_nil] at hitems
        rw [List.mapM_nil]
        exact pure (by rwa [List.append_nil, hitems])
    | cons item rest ih =>
        intro done results state hitems hinv
        rw [List.mapM_cons]
        refine (hround done item rest results state hitems hinv).bind fun value after hafter => ?_
        refine (ih (done ++ [item]) (results ++ [value]) after (by simp [hitems]) hafter).bind ?_
        intro values last hlast
        exact pure (by rwa [List.append_assoc] at hlast)
  exact hrest items [] [] before rfl h

/-- The invariant of `filterM` also sees which items have been kept so far. -/
theorem filterM {keep : ι → EStateM ε σ Bool} (inv : List ι → List ι → σ → Prop)
    (hround : ∀ done item rest kept state, items = done ++ item :: rest → inv done kept state →
      Ends (keep item) state
        (fun answer after => inv (done ++ [item]) (if answer then kept ++ [item] else kept) after)
        bad)
    (h : inv [] [] before) : Ends (items.filterM keep) before (inv items) bad := by
  -- the loop collects what it keeps in reverse
  have hrest : ∀ rest done kept state, items = done ++ rest → inv done kept.reverse state →
      Ends (rest.filterAuxM keep kept) state (fun all after => inv items all.reverse after) bad := by
    intro rest
    induction rest with
    | nil =>
        intro done kept state hitems hinv
        rw [List.append_nil] at hitems
        exact pure (by rwa [hitems])
    | cons item rest ih =>
        intro done kept state hitems hinv
        show Ends (keep item >>= fun answer =>
          rest.filterAuxM keep (cond answer (item :: kept) kept)) state _ bad
        refine (hround done item rest kept.reverse state hitems hinv).bind fun answer after hafter =>
          ih (done ++ [item]) _ after (by simp [hitems]) ?_
        cases answer with
        | true => simpa using hafter
        | false => simpa using hafter
  show Ends (items.filterAuxM keep [] >>= fun all => Pure.pure all.reverse) before _ bad
  exact (hrest items [] [] before rfl h).bind fun all after hinv => pure hinv

/-! ## Loops that only read -/

/-- Rounds that leave the state and whose results depend on their items alone.  What each of them finds to hold of its
item holds of all items in the end. -/
theorem mapM_read {round : ι → EStateM ε σ α} (value : ι → α) (holds : ι → Prop)
    (hround : ∀ done item rest, items = done ++ item :: rest → (∀ other ∈ done, holds other) →
      Ends (round item) before (fun result after => result = value item ∧ after = before ∧ holds item) bad) :
    Ends (items.mapM round) before
      (fun results after => results = items.map value ∧ after = before ∧ ∀ item ∈ items, holds item) bad := by
  refine .mapM (fun done results state => results = done.map value ∧ state = before ∧ ∀ item ∈ done, holds item) ?_
    ⟨rfl, rfl, List.forall_mem_nil _⟩
  rintro done item rest results state hitems ⟨rfl, rfl, hdone⟩
  refine (hround done item rest hitems hdone).imp ?_
  rintro result after ⟨rfl, rfl, hitem⟩
  exact ⟨by simp, rfl, List.forall_mem_append.mpr ⟨hdone, List.forall_mem_singleton.mpr hitem⟩⟩

/-- Rounds that leave the state and that keep their items by a test of these alone. -/
theorem filterM_read {keep : ι → EStateM ε σ Bool} (test : ι → Bool) (holds : ι → Prop)
    (hround : ∀ item ∈ items,
      Ends (keep item) before (fun answer after => answer = test item ∧ after = before ∧ holds item) bad) :
    Ends (items.filterM keep) before
      (fun kept after => kept = items.filter test ∧ after = before ∧ ∀ item ∈ items, holds item) bad := by
  refine .filterM (fun done kept state => kept = done.filter test ∧ state = before ∧ ∀ item ∈ done, holds item) ?_
    ⟨rfl, rfl, List.forall_mem_nil _⟩
  rintro done item rest kept state hitems ⟨rfl, rfl, hdone⟩
  refine (hround item (by simp [hitems])).imp ?_
  rintro answer after ⟨rfl, rfl, hitem⟩
  refine ⟨?_, rfl, List.forall_mem_append.mpr ⟨hdone, List.forall_mem_singleton.mpr hitem⟩⟩
  rw [List.filter_append]
  cases htest : test item with
  | true => simp [htest]
  | false => simp [htest]

end Ends

-- unfolding an ending would run the step
attribute [irreducible] Ends

end ChangeImpact
