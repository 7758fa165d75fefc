import ReadThrough.Proofs.Cluster.Slices

/-!
# The gets on one name go on by themselves

A simulation is split if another one is its slice on a name, but for what stands at gates
(`Split`). It stays so while gets make transitions: those on the name make theirs in the slice as
well, and the others leave it as it is. Since the gets on the name keep their order, a round is a
round of the slice, and since more rounds than enough make no difference, the slice settles as the
whole does (`Split.settle`).
-/

namespace ReadThrough.Simulation

variable {s part following following' : Simulation} {owners : List String}
  {number index : Nat} {st : Station} {deed : Deed} {name : String} {now : Millis}
  {node : String}

/-- What is related to the same is so to each other. -/
theorem rel_both {A B C : Type} {r : A → C → Prop} {r' : B → C → Prop} {q : A → B → Prop}
    {first : Option A} {second : Option B} {third : Option C} (h : Option.Rel r first third)
    (h' : Option.Rel r' second third)
    (hboth : ∀ a b c, third = some c → r a c → r' b c → q a b) : Option.Rel q first second := by
  cases h with
  | some hrel =>
      cases h' with
      | some hrel' => exact .some (hboth _ _ _ rfl hrel hrel')
  | none =>
      cases h'
      exact .none

/-- Each get at a station is on the group that it was begun on. -/
def Faithful (s : Simulation) (owners : List String) : Prop :=
  ∀ (number index : Nat) (st : Station), s.At number index st →
    owners[number]? = some st.group.name

theorem Faithful.name_eq (h : s.Faithful owners) (hat : s.At number index st)
    (howner : owners[number]? = some name) : st.group.name = name :=
  Option.some.inj ((h number index st hat).symm.trans howner)

/-- A get that makes a transition keeps all to their groups. -/
theorem Comes.faithful (hcomes : Comes s number index following deed) (hwhole : s.Lone)
    (hat : s.At number index st) (hturns : st.Turns now node deed) (h : s.Faithful owners) :
    following.Faithful owners := by
  intro other place found hfound
  by_cases hne : other = number
  · subst hne
    have hnext := hcomes.next?_eq hat hturns hfound
    unfold Station.next? at hnext
    split at hnext
    · obtain rfl := Option.some.inj hnext
      exact (h other index st hat).trans (congrArg some hturns.own.1.symm)
    · cases hnext
    · cases hnext
  · obtain ⟨hcluster, -, -⟩ := same_of_ungated hcomes.put
    -- any other get was at a station before, of whose group it keeps the name
    rcases hwhole.cases other with ⟨before, station, hstation⟩ | hover
    · have hbeside : following.At other before (station.beside (before == index) deed) :=
        (hstation.beside hne).congr hcomes.put
      obtain ⟨-, rfl⟩ := hbeside.unique hfound
      refine (h other before station hstation).trans (congrArg some ?_)
      by_cases heq : before = index
      · subst heq
        have hgroup : station.group = st.group :=
          Option.some.inj (hstation.group.symm.trans hat.group)
        simp [Station.beside, hgroup, hturns.own.1]
      · simp [Station.beside, heq]
    · have htask := hfound.task
      rw [hcluster, put_task_of_ne hne] at htask
      cases (hover _ htask).frames

/-- A simulation with the gets on one name, given the names of all of them. -/
structure Split (owners : List String) (name : String) (s part : Simulation) : Prop where
  whole : s.Lone
  lone : part.Lone
  slice : part.ungated = s.slice owners name
  size : owners.length = s.cluster.tasks.size
  faithful : s.Faithful owners
  finished : ∀ number ∈ s.cluster.finished, number < owners.length

namespace Split

variable (h : Split owners name s part)
include h

theorem cluster_eq : part.cluster = s.cluster.slice owners name := by
  have hslice := h.slice
  simp only [ungated, Simulation.slice, Simulation.mk.injEq] at hslice
  exact hslice.1

theorem now_eq : part.cluster.now = s.cluster.now := by
  rw [h.cluster_eq]
  rfl

theorem name_eq : part.name = s.name := by
  rw [Simulation.name, Simulation.name, h.cluster_eq, Cluster.slice, Array.getElem?_map,
    Option.map_map]
  rfl

theorem size_part : part.cluster.tasks.size = rank name owners s.cluster.tasks.size := by
  rw [← size_slice h.size, h.cluster_eq]
  rfl

/-- The station of a get on the name is the same in the slice. -/
theorem part_at (hat : s.At number index st) (hname : st.group.name = name) :
    part.At (rank name owners number) (rank name s.cluster.instances index) st := by
  subst hname
  exact (hat.slice (h.faithful _ _ _ hat)).congr h.slice

section

variable (hat : s.At number index st) (hturns : st.Turns now node deed)
  (hcomes : Comes s number index following deed) (hlone : following.Lone)
include hat hturns hcomes hlone

/-- What a get does leaves the whole split, whatever it does to the slice. -/
theorem comes (hlone' : following'.Lone)
    (hslice : following'.ungated = (s.put number index deed).slice owners name) :
    Split owners name following following' := by
  have hsize := (hcomes.keeps hat hturns).size
  refine ⟨hlone, hlone', hslice.trans (slice_congr hcomes.put owners name).symm,
    hsize ▸ h.size, hcomes.faithful h.whole hat hturns h.faithful, fun other hmem ↦ ?_⟩
  rw [(same_of_ungated hcomes.put).1] at hmem
  simp only [put, Cluster.put] at hmem
  split at hmem
  · rcases Array.mem_push.1 hmem with hmem | rfl
    · exact h.finished other hmem
    · exact h.size ▸ (Array.getElem?_eq_some_iff.1 hat.task).1
  · exact h.finished other hmem
  · exact h.finished other hmem

/-- What a get on the name does, it does in the slice. -/
theorem own (hname : st.group.name = name)
    (hpart : Comes part (rank name owners number) (rank name s.cluster.instances index) following'
      deed) (hlone' : following'.Lone) : Split owners name following following' := by
  subst hname
  refine h.comes hat hturns hcomes hlone hlone' (hpart.put.trans ?_)
  rw [slice_put hat (h.faithful number index st hat) hturns.on, ← h.slice]
  rfl

/-- What a get on another name does leaves the slice as it is. -/
theorem other (hname : st.group.name ≠ name) : Split owners name following part := by
  refine h.comes hat hturns hcomes hlone h.lone (h.slice.trans ?_)
  exact (slice_put_of_ne hat (h.faithful number index st hat) hturns.on hname).symm

end

/-- Where a get on the name is over, it is so in the slice. -/
theorem part_over (howner : owners[number]? = some name)
    (hover : ∀ task, s.cluster.tasks[number]? = some task → task.Over) {task : Task}
    (htask : part.cluster.tasks[rank name owners number]? = some task) : task.Over := by
  rw [h.cluster_eq] at htask
  simp only [Cluster.slice, List.getElem?_toArray, List.getElem?_map, getElem?_share howner,
    Array.getElem?_toList, Option.map_eq_some_iff] at htask
  obtain ⟨whole, hwhole, rfl⟩ := htask
  obtain ⟨hframes, hsettled⟩ := hover whole hwhole
  exact ⟨by simp [Task.renumber, hframes], hsettled⟩

/-- A get on the name makes a transition if it does in the slice. -/
theorem stepTask? (howner : owners[number]? = some name) :
    Option.Rel (Split owners name) (s.stepTask? number)
      (part.stepTask? (rank name owners number)) := by
  rcases h.whole.cases number with ⟨index, st, hat⟩ | hover
  · have hname := h.faithful.name_eq hat howner
    have hpart := h.part_at hat hname
    have hrel := hat.stepTask? h.whole.shut h.whole.alone
    have hrel' := hpart.stepTask? h.lone.shut h.lone.alone
    rw [h.now_eq, h.name_eq] at hrel'
    refine rel_both hrel hrel' fun after after' deed hdeed hcomes hcomes' ↦ ?_
    have hturns : st.Turns s.cluster.now s.name deed := Station.step?_turns hat.fits hdeed
    have hreached := hat.reached h.whole.alone h.whole.reached hdeed
    have hreached' := hpart.reached h.lone.alone h.lone.reached (h.now_eq ▸ h.name_eq ▸ hdeed)
    exact h.own hat hturns hcomes (h.whole.comes hat hturns hreached hcomes) hname hcomes'
      (h.lone.comes hpart hturns hreached' hcomes')
  · rw [stepTask?_of_over hover, stepTask?_of_over fun task ↦ h.part_over howner hover]
    exact .none

/-- A get on another name makes a transition, and the slice stays as it is. -/
theorem stepTask?_of_ne {owner : String} (howner : owners[number]? = some owner)
    (hne : owner ≠ name) (hstep : s.stepTask? number = some following) :
    Split owners name following part := by
  obtain ⟨index, st, deed, hat, hdeed, hcomes, hfollowing⟩ := h.whole.stepTask? hstep
  have hname := h.faithful.name_eq hat howner
  exact h.other hat (Station.step?_turns hat.fits hdeed) hcomes hfollowing (hname ▸ hne)

end Split

namespace Split

theorem runTask (h : Split owners name s part) (howner : owners[number]? = some name)
    (limit : Nat) :
    Split owners name (runTask limit s number) (runTask limit part (rank name owners number)) := by
  induction limit generalizing s part with
  | zero => exact h
  | succ limit ih =>
      have hrel := h.stepTask? howner
      rw [Simulation.runTask, Simulation.runTask]
      cases hstep : s.stepTask? number with
      | none =>
          rw [(eq_none_of_rel hrel).1 hstep]
          exact h
      | some following =>
          rw [hstep] at hrel
          obtain ⟨following', hpart, hsplit⟩ := exists_of_rel hrel
          rw [hpart]
          exact ih hsplit

theorem runTask_of_ne (h : Split owners name s part) {owner : String}
    (howner : owners[number]? = some owner) (hne : owner ≠ name) (limit : Nat) :
    Split owners name (Simulation.runTask limit s number) part := by
  induction limit generalizing s with
  | zero => exact h
  | succ limit ih =>
      rw [Simulation.runTask]
      cases hstep : s.stepTask? number with
      | none => exact h
      | some following => exact ih (h.stepTask?_of_ne howner hne hstep)

/-- A get that has its turn in a round has it in the slice of its name. -/
theorem turns (h : Split owners name s part) {count : Nat} (hcount : count ≤ owners.length) :
    Split owners name ((List.range count).foldl (Simulation.runTask turnLimit) s)
      ((List.range (rank name owners count)).foldl (Simulation.runTask turnLimit) part) := by
  -- the turns in the slice are as many as the turns so far of gets on the name
  induction count with
  | zero => exact h
  | succ count ih =>
      have hsplit := ih (Nat.le_of_succ_le hcount)
      have howner := List.getElem?_eq_getElem hcount
      by_cases hname : owners[count] = name
      · rw [hname] at howner
        simp only [rank_succ howner, BEq.rfl, if_true, List.range_succ, List.foldl_append,
          List.foldl_cons, List.foldl_nil]
        exact hsplit.runTask howner turnLimit
      · simp only [rank_succ howner, beq_eq_false_iff_ne.2 hname, Bool.false_eq_true, if_false,
          Nat.add_zero, List.range_succ, List.foldl_append, List.foldl_cons, List.foldl_nil]
        exact hsplit.runTask_of_ne howner hname turnLimit

/-- A round is a round of the slice. -/
theorem round (h : Split owners name s part) : Split owners name s.round part.round := by
  rw [h.whole.round_eq, h.lone.round_eq, h.size_part]
  exact h.turns (Nat.le_of_eq h.size.symm)

theorem iterate (h : Split owners name s part) (count : Nat) :
    Split owners name (Simulation.round^[count] s) (Simulation.round^[count] part) := by
  induction count generalizing s part with
  | zero => exact h
  | succ count ih => exact ih h.round

/-- The slice settles as the whole does. -/
theorem settle (h : Split owners name s part) : Split owners name s.settle part.settle := by
  have hle : part.cluster.tasks.size ≤ s.cluster.tasks.size := by
    rw [h.size_part, ← h.size, rank_of_le (Nat.le_refl _)]
    exact List.count_le_length
  -- the limits on rounds differ, but either is enough, and so is one above the number of all gets
  rw [(h.whole.settle_eq (Nat.lt_succ_self _)).1, (h.lone.settle_eq (Nat.lt_succ_of_le hle)).1]
  exact h.iterate _

end Split

end ReadThrough.Simulation
