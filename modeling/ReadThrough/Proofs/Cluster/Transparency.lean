import ReadThrough.Proofs.Cluster.Verdicts

/-!
# Reading through is transparent

The main statement is `Runs.transparent`: in a cluster whose groups of one name load from one pure
source, however its nodes, memberships, caches, flights and tokens are arranged and whatever happens
in which order, a get ends with what the source has for its own key, or cancelled.
-/

namespace ReadThrough

/-- What a pure source has for the keys of each group name: a payload, or why there is none. The
lifetime of a payload is left open. -/
abbrev Truth := (name key : String) → Except LoadFault ByteArray

namespace Truth

/-- The outcomes of a get that say what the source has for its key, or that it was cancelled. -/
inductive Gives (f : Truth) (name key : String) : Outcome → Prop where
  | value (value : Value) : f name key = .ok value.data → Gives f name key (.ok value)
  | notFound : f name key = .error .notFound → Gives f name key (.error (.notFound key))
  | failed (reason : String) :
      f name key = .error (.failed reason) → Gives f name key (.error (.loaderFailure key reason))
  | cancelled : Gives f name key (.error .cancelled)

/-- The runs in which groups fall back to loading, loaders answer what the source has for the key
and the group they were called for, and fetches that no node of the cluster serves fail. -/
def Allows (f : Truth) (c : Cluster) : Cluster.Action → Prop
  | .create _ _ settings => settings.fallbackToLocal = true
  | .answerLoad number answer => ∀ frame group, c.Innermost number frame group →
      answer.map Value.data = f group.name frame.key
  | .answerFetch _ answer => ∃ peer reason, answer = .error (.transportFailure peer reason)
  | _ => True

theorem lenient_gives (f : Truth) : Verdict.Lenient f.Gives where
  cancelled := fun _ _ ↦ .cancelled
  restated := by
    rintro name key _ (_ | habsent)
    exact .notFound habsent

/-- An answer that says what the source has stands for an outcome that does. -/
theorem gives_outcome {f : Truth} {name key : String} {answer : LoadAnswer}
    (h : answer.map Value.data = f name key) :
    f.Gives name key (LoadAnswer.outcome key answer) := by
  rcases answer with (_ | reason) | value
  · exact .notFound h.symm
  · exact .failed reason h.symm
  · exact .value value h.symm

/-- What is allowed of the surroundings is what the verdict asks of them. -/
theorem Allows.verdict {f : Truth} {c : Cluster} {action : Cluster.Action}
    (h : f.Allows c action) : Verdict.Allows f.Gives c action := by
  cases action with
  | create node name settings => exact .inl h
  | answerLoad number answer =>
      intro frame group hinner
      exact gives_outcome (h frame group hinner)
  | answerFetch number answer =>
      intro frame group hinner
      obtain ⟨peer, reason, rfl⟩ := h
      exact .inr ⟨_, rfl, rfl, by simp⟩
  | _ => trivial

end Truth

namespace Cluster

/-- Reading through is transparent: a get on a group ends with what the source of the groups of that
name has for its own key, or cancelled, whatever else goes on before it begins and until it
ends. -/
theorem Runs.transparent (f : Truth) {c last : Cluster} {node index : Nat} {key : String}
    {hearsToken cancelled : Bool} {timeout : Option Millis} {group : Group} {answer : Answer}
    (hbefore : Runs f.Allows empty c) (hgroup : c.groups[index]? = some group)
    (hafter : Runs f.Allows (c.get node index key hearsToken cancelled timeout).2 last)
    (hanswer : last.answer? (c.get node index key hearsToken cancelled timeout).1 =
      some answer) :
    ∃ outcome, answer = .got outcome ∧ f.Gives group.name key outcome := by
  have hP := f.lenient_gives
  obtain ⟨keys, goals, hsound, -⟩ := hbefore.sound hP (fun _ _ ↦ Truth.Allows.verdict)
    (sound_empty f.Gives (fun _ _ ↦ "") fun _ ↦ ("", ""))
  -- a run may begin anywhere, so the invariant is carried on from where the get begins
  have hbegun := hsound.begin hgroup node key .get hearsToken cancelled
    (timeout.map (c.now + ·))
  obtain ⟨keys', goals', hsound', -, hgoals⟩ :=
    hafter.sound hP (fun _ _ ↦ Truth.Allows.verdict) hbegun
  -- the task of the get is the one that was begun last
  have htask : (c.get node index key hearsToken cancelled timeout).2.tasks[c.tasks.size]? = some
      { purpose := .get, cancelled, deadline := timeout.map (c.now + ·)
        frames := [{ node, group := index, key, hearsToken, stage := .asked }]
        answer := none, dropped := false } := Array.getElem?_push_size
  obtain ⟨task, hlast, -, -, hgot⟩ := hafter.continues htask rfl
  obtain ⟨found, hfound, hfinished⟩ := Option.bind_eq_some_iff.1 hanswer
  replace hfound : last.tasks[c.tasks.size]? = some found := hfound
  rw [hlast] at hfound
  cases hfound
  obtain ⟨now, outcome, rfl⟩ := hgot answer hfinished
  have hgives := hsound'.answers c.tasks.size task outcome hlast hfinished
  rw [hgoals c.tasks.size (by simp [Cluster.begin]), Function.update_self] at hgives
  exact ⟨outcome, rfl, hgives⟩

/-- A source that has one key. -/
def oneKey : Truth := fun _ key ↦ if key = "k" then .ok "v".toUTF8 else .error .notFound

/-- Two nodes with a group each, of which the first one takes the second one for the owner of every
key. -/
def pair : Cluster :=
  (empty.actAll?
    [.join (.alone "a" 1 fun _ ↦ 0) (.network true) "/" 1000,
      .join (.alone "b" 1 fun _ ↦ 0) (.network true) "/" 1000, .create 0 "g" .default,
      .create 1 "g" .default, .changePeers 0 (.set ["b"])]).get (by decide +kernel)

/-- A get on the first node, forwarded to the second one and waiting for its loader. -/
def forwardedPair : Cluster :=
  ((pair.get 0 0 "k" true false none).2.actAll? (List.replicate 6 (.step 0))).get
    (by decide +kernel)

/-- The get is answered with what the loader of the second node has. -/
theorem transparent_forwarded : ∃ last outcome,
    Runs oneKey.Allows (pair.get 0 0 "k" true false none).2 last ∧
    last.answer? 0 = some (.got outcome) ∧ oneKey.Gives "g" "k" outcome := by
  have hpair : Runs oneKey.Allows empty pair := by
    refine Runs.here.actAll ?_ (Option.some_get _).symm
    simp [Truth.Allows, GroupSettings.default]
  have hforwarded : Runs oneKey.Allows (pair.get 0 0 "k" true false none).2 forwardedPair := by
    refine Runs.here.actAll ?_ (Option.some_get _).symm
    simp [Truth.Allows]
  have hends : (((forwardedPair.act? (.answerLoad 0 (.ok (.lasting "v".toUTF8)))).bind
      (·.actAll? (List.replicate 4 (.step 0)))).bind (·.answer? 0)).isSome := by
    decide +kernel
  obtain ⟨answer, hanswer⟩ := Option.isSome_iff_exists.1 hends
  obtain ⟨last, hlast, hanswer⟩ := Option.bind_eq_some_iff.1 hanswer
  obtain ⟨loaded, hloaded, hlast⟩ := Option.bind_eq_some_iff.1 hlast
  have hkey : ((forwardedPair.tasks[0]?).bind (·.frames.head?)).map Frame.key = some "k" := by
    decide +kernel
  have hafter : Runs oneKey.Allows (pair.get 0 0 "k" true false none).2 last := by
    refine Runs.actAll (hforwarded.next ?_ hloaded) ?_ hlast
    · rintro frame group ⟨task, outer, htask, hframes, -⟩
      rw [htask, Option.bind_some, hframes] at hkey
      have hframe : frame.key = "k" := Option.some.inj hkey
      exact (if_pos hframe).symm
    · simp [Truth.Allows]
  have hname : (pair.groups[0]?).map Group.name = some "g" := by decide +kernel
  obtain ⟨group, hgroup, hname⟩ := Option.map_eq_some_iff.1 hname
  obtain ⟨outcome, rfl, hgives⟩ := Runs.transparent oneKey hpair hgroup hafter hanswer
  exact ⟨last, outcome, hafter, hanswer, hname ▸ hgives⟩

end Cluster

end ReadThrough
