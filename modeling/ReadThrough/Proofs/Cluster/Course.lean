import ReadThrough.Proofs.Cluster.Events

/-!
# Runs with their history

A `Course` is a run together with the moments on its way. What a statement says of the past, such as
where a value was loaded first, it says of these moments.
-/

namespace ReadThrough.Cluster

/-- One action of a run, with the cluster before it and the cluster after it. -/
structure Moment where
  before : Cluster
  action : Action
  after : Cluster

/-- The clusters that runs from a cluster lead to, with the moments on the way, the latest one
first. -/
inductive Course (c : Cluster) : Cluster → List Moment → Prop where
  | here : Course c c []
  | next {middle following : Cluster} {past : List Moment} {action : Action} :
      Course c middle past → middle.act? action = some following →
      Course c following (⟨middle, action, following⟩ :: past)

variable {c middle last : Cluster} {past : List Moment}

/-- A run is one with a history, at each moment of which the action was allowed. -/
theorem runs_iff_course {allowed : Cluster → Action → Prop} : Runs allowed c last ↔
    ∃ past, Course c last past ∧ ∀ moment ∈ past, allowed moment.before moment.action := by
  constructor
  · intro run
    induction run with
    | here => exact ⟨[], .here, fun _ hmem ↦ nomatch hmem⟩
    | next _ hallowed hact ih =>
        obtain ⟨past, course, hpast⟩ := ih
        exact ⟨_, course.next hact, List.forall_mem_cons.2 ⟨hallowed, hpast⟩⟩
  · rintro ⟨past, course, hallowed⟩
    induction course with
    | here => exact .here
    | next _ hact ih =>
        obtain ⟨hnow, hpast⟩ := List.forall_mem_cons.1 hallowed
        exact (ih hpast).next hnow hact

/-- A run with its history is a run. -/
theorem Course.runs (course : Course c last past) : Runs (fun _ _ ↦ True) c last :=
  runs_iff_course.2 ⟨past, course, fun _ _ ↦ trivial⟩

/-- The past of a moment is that of a run to the cluster before it. -/
theorem Course.before (course : Course c last past) {moment : Moment} {earlier : List Moment}
    (h : moment :: earlier <:+ past) :
    Course c moment.before earlier ∧ moment.before.act? moment.action = some moment.after := by
  induction course with
  | here => cases List.suffix_nil.1 h
  | next course hact ih =>
      rcases List.suffix_cons_iff.1 h with heq | h
      · cases heq
        exact ⟨course, hact⟩
      · exact ih h

/-- A run goes on with one action after the other. -/
theorem Course.actAll (course : Course c middle past) {actions : List Action}
    (hact : middle.actAll? actions = some last) :
    ∃ later, Course c last (later ++ past) ∧ ∀ moment ∈ later, moment.action ∈ actions := by
  induction actions generalizing middle past with
  | nil =>
      cases hact
      exact ⟨[], course, fun _ hmem ↦ nomatch hmem⟩
  | cons action rest ih =>
      obtain ⟨next, hnext, hrest⟩ := Option.bind_eq_some_iff.1 hact
      obtain ⟨later, hcourse, hactions⟩ := ih (course.next hnext) hrest
      refine ⟨later ++ [⟨middle, action, next⟩], by rwa [List.append_assoc], ?_⟩
      intro moment hmem
      rcases List.mem_append.1 hmem with hmem | hmem
      · exact List.mem_cons_of_mem _ (hactions moment hmem)
      · rw [List.mem_singleton.1 hmem]
        exact List.mem_cons_self

end ReadThrough.Cluster
