import ReadThrough.Proofs.Cluster.Crews
import ReadThrough.Proofs.Cluster.Workers
import ReadThrough.Proofs.Group.Residue

/-!
# Failed gets leave no trace

What a get leaves that is alone on its group is put together from what each of its turns leaves
(`Works.spared`). The main statement is `Runs.failure_leaves_no_trace`: a get that ends without a
value, for whatever reason and at whatever point, leaves the tiers as they were, an expired entry of
its key aside.
-/

namespace ReadThrough

/-- What a frame has come to, if it has come to something. -/
def FrameStage.outcome? : FrameStage → Option Outcome
  | .leading _ (.done outcome) | .answered outcome => some outcome
  | _ => none

theorem Group.Fetched.outcome?_errand (taken : Group.Fetched) (flight : Nat) :
    (FrameStage.leading flight taken.errand).outcome? = taken.outcome? := by
  cases taken <;> rfl

/-- What is at rest has come to nothing. -/
theorem FrameStage.outcome?_of_awaits {stage : FrameStage} (h : stage.awaits = true) :
    stage.outcome? = none := by
  unfold FrameStage.awaits at h
  split at h <;> first | rfl | cases h

theorem Group.Alike.spared {after group : Group} {key : String} {now : Millis}
    {result : Option Outcome} (h : after.Alike group) : after.Spared group key now result :=
  Group.spared_of_eq h.settings h.cache h.absences

namespace Cluster

/-- One get, given by its task and its height in that, is all that goes on on a group. -/
def Alone (index number height : Nat) (c : Cluster) (action : Action) : Prop :=
  c.places index = [(number, height)] ∧ action.purges? ≠ some index

instance (index number height : Nat) (c : Cluster) (action : Action) :
    Decidable (Alone index number height c action) :=
  inferInstanceAs (Decidable (_ ∧ _))

variable {c start begun last : Cluster} {action first : Action} {index number height : Nat}
  {frame next : Frame} {group after : Group} {stage : FrameStage} {key : String}

/-! ## One move -/

/-- What a frame comes to at last it has come to for good, and what its group holds stays. -/
theorem Works.settled (h : Works c action number height frame group stage after)
    {outcome : Outcome} (hcome : frame.stage.outcome? = some outcome) :
    stage.outcome? = some outcome ∧ after.Alike group := by
  cases h with
  | turned task outer _ _ htask hframes hheight hturn =>
      cases hturn with
      | landed flight _ hstage =>
          rw [hstage] at hcome
          exact ⟨hcome, rfl, rfl, rfl, rfl, rfl⟩
      | joined _ hcontends | led hcontends =>
          rcases hcontends with hstage | ⟨flight, hstage, -⟩ <;>
            simp [hstage, FrameStage.outcome?] at hcome
      | _ => simp_all [FrameStage.outcome?]
  | forwarded _ _ _ _ _ _ _ _ _ _ _ hstage => simp [hstage, FrameStage.outcome?] at hcome
  | handed _ _ _ _ _ _ _ _ _ _ _ hstage => simp [hstage, FrameStage.outcome?] at hcome
  | brokeOff _ _ _ _ _ _ _ _ _ _ hstage => simp [hstage, FrameStage.outcome?] at hcome
  | heeded _ _ _ hawaits => simp [FrameStage.outcome?_of_awaits hawaits] at hcome

/-- A frame that has come to nothing comes to a value, or spares what its group holds. -/
theorem Works.spared (h : Works c action number height frame group stage after)
    (hcome : frame.stage.outcome? = none) :
    (∃ value, stage.outcome? = some (.ok value)) ∨
      after.Spared group frame.key c.now stage.outcome? := by
  have hfetched {left : Group} (hleft : left.Alike group) (flight : Nat) (answer : Outcome) :
      (∃ value, (FrameStage.leading flight
        (left.takeFetched frame.key c.now answer).1.errand).outcome? = some (.ok value)) ∨
      (left.takeFetched frame.key c.now answer).2.Spared group frame.key c.now (FrameStage.leading
        flight (left.takeFetched frame.key c.now answer).1.errand).outcome? := by
    rw [Group.Fetched.outcome?_errand]
    rcases left.takeFetched_spared frame.key c.now answer with ⟨value, hvalue⟩ | hspared
    · exact .inl ⟨value, by rw [hvalue]; rfl⟩
    · exact .inr (hleft.spared.trans hspared (Nat.le_refl _))
  cases h with
  | turned task outer _ _ htask hframes hheight hturn =>
      cases hturn with
      | answered outcome _ hstage hconsult =>
          refine (Group.consult_spared hconsult).imp_left ?_
          rintro ⟨value, heq⟩
          exact ⟨value, heq⟩
      | missed _ hstage hconsult =>
          exact .inr ((Group.consult_spared hconsult).resolve_left fun ⟨_, hvalue⟩ ↦ nomatch hvalue)
      | joined | led | took | loads | fetches => exact .inr (Group.spared_of_eq rfl rfl rfl)
      | found flight value => exact .inl ⟨value, rfl⟩
      | refused flight node peer sharesToken fault => exact hfetched (.refl group) flight _
      | landed flight outcome hstage => simp [hstage, FrameStage.outcome?] at hcome
      | loaded flight answer hstage =>
          refine (group.takeLoaded_spared frame.key c.now answer).imp_left ?_
          rintro ⟨value, heq⟩
          exact ⟨value, congrArg some heq⟩
      | fetched flight peer answer => exact hfetched (.refl group) flight answer
  | forwarded _ _ _ _ _ _ _ _ _ _ _ _ _ _ _ halike => exact .inr halike.spared
  | handed _ _ _ outcome flight => exact hfetched (.refl group) flight outcome
  | brokeOff _ reason _ flight peer _ _ _ _ _ _ halike => exact hfetched halike flight _
  | heeded _ _ _ _ halike => exact .inr halike.spared

/-! ## A get from its beginning to its end -/

section

variable {allowed : Cluster → Action → Prop}

theorem FrameAt.mem_places (h : c.FrameAt number height frame) (hon : frame.group = index) :
    (number, height) ∈ c.places index :=
  Cluster.mem_places.2 ⟨frame, h, hon⟩

/-- A get that has been alone on its group since it began has come to a value, or has spared what
the group held. -/
theorem Runs.spared (run : Runs allowed empty start) (hgroup : start.groups[index]? = some group)
    (hidle : start.places index = []) (hfirst : first.purges? ≠ some index)
    (hbegun : start.act? first = some begun) (course : Runs (Alone index number height) begun c)
    (hplaces : c.places index = [(number, height)]) :
    Runs (fun _ _ ↦ True) empty c ∧ ∃ frame after, c.FrameAt number height frame ∧
      frame.group = index ∧ c.groups[index]? = some after ∧
      ((∃ value, frame.stage.outcome? = some (.ok value)) ∨
        after.Spared group frame.key c.now frame.stage.outcome?) := by
  induction course with
  | here =>
      have hrun : Runs (fun _ _ ↦ True) empty begun :=
        (run.mono fun _ _ _ ↦ trivial).next trivial hbegun
      obtain ⟨frame, hat, hon⟩ := mem_places.1 (hplaces ▸ List.mem_cons_self)
      rcases (act?_move hbegun).on_group run.grouped hgroup hfirst with
        ⟨other, place, worker, _, _, hindex, hworker, -⟩ | ⟨⟨after, hafter, halike⟩, -⟩
      · have hmem := hworker.mem_places hindex
        rw [hidle] at hmem
        cases hmem
      · exact ⟨hrun, frame, after, hat, hon, hafter, .inr halike.spared⟩
  | @next c following action _ halone hact ih =>
      obtain ⟨hrun, frame, before, hat, hon, hbefore, hspared⟩ := ih halone.1
      refine ⟨hrun.next trivial hact, ?_⟩
      obtain ⟨next, hnext, hstill⟩ := mem_places.1 (hplaces ▸ List.mem_cons_self)
      have hnow := (act?_accounts hact).1
      rcases (act?_move hact).on_group hrun.grouped hbefore halone.2 with
        ⟨other, place, worker, stage, after, hindex, hworker, hworks, hleft, hafter⟩ |
        ⟨⟨after, hafter, halike⟩, hstays⟩
      · -- the only frame on the group works
        have hmem := hworker.mem_places hindex
        rw [halone.1, List.mem_singleton, Prod.mk.injEq] at hmem
        obtain ⟨rfl, rfl⟩ := hmem
        obtain rfl := hat.unique hworker
        obtain rfl := hnext.unique hleft
        refine ⟨_, after, hnext, hstill, hafter, ?_⟩
        cases hcome : frame.stage.outcome? with
        | some outcome =>
            obtain ⟨hsettled, hkept⟩ := hworks.settled hcome
            rw [hsettled, ← hcome]
            exact hspared.imp_right fun hspared ↦ (hspared.mono hnow).congr hkept.settings
              hkept.cache hkept.absences
        | none =>
            rw [hcome] at hspared
            have hspared := hspared.resolve_left fun ⟨_, hvalue⟩ ↦ nomatch hvalue
            refine (hworks.spared hcome).imp_right fun hmore ↦ ?_
            exact hspared.trans (hmore.mono hnow) hnow
      · obtain rfl := hstays number height frame next hon hat hnext
        refine ⟨next, after, hnext, hstill, hafter, hspared.imp_right fun hspared ↦ ?_⟩
        exact (hspared.mono hnow).congr halike.settings halike.cache halike.absences

/-- No flight is on record where no frame is on the group. -/
theorem Runs.inFlight_eq_zero (run : Runs allowed empty c) (hgroup : c.groups[index]? = some group)
    (hidle : c.places index = []) : group.flights.inFlight = 0 := by
  obtain ⟨keys, goals, hsound⟩ := run.keyed
  rw [FlightTable.inFlight, List.length_eq_zero_iff, List.eq_nil_iff_forall_not_mem]
  rintro ⟨key, flight⟩ hrecord
  obtain ⟨haloft, -⟩ := (hsound.groups index group hgroup).records key flight hrecord
  obtain ⟨number, frame, hframe, hon, -⟩ := run.crewed.led index flight ⟨group, hgroup, haloft⟩
  obtain ⟨height, hat⟩ := hframe.exists_frameAt
  have hmem := hat.mem_places hon
  rw [hidle] at hmem
  cases hmem

/-- Failed gets leave no trace. Take any group of a cluster that a run leads to, with no get on it,
and one that begins and is alone on the group until it ends: no other get is on the group and no key
is taken out from outside, whatever happens elsewhere. It ends where its frame is gone, since that
has handed on what it came to or was given up. If it came to no value until then, each tier has the
entries that it had, in the order in which they were used, except that an expired one of the key may
be gone. No absence is remembered that was not before, unless it is that of the key, to which the
get came, and absences are to be remembered. And no flight is on record. -/
theorem Runs.failure_leaves_no_trace (run : Runs allowed empty start)
    (hgroup : start.groups[index]? = some group) (hidle : start.places index = [])
    (hfirst : first.purges? ≠ some index) (hbegun : start.act? first = some begun)
    (course : Runs (Alone index number height) begun c)
    (hframe : c.frame? number height = some frame)
    (hfailed : ∀ value, frame.stage.outcome? ≠ some (.ok value))
    (halone : Alone index number height c action) (hact : c.act? action = some last)
    (hover : last.places index = []) :
    ∃ after, last.groups[index]? = some after ∧
      after.Spared group frame.key last.now frame.stage.outcome? ∧ after.flights.inFlight = 0 := by
  obtain ⟨hrun, found, before, hat, hon, hbefore, hspared⟩ :=
    run.spared hgroup hidle hfirst hbegun course halone.1
  obtain rfl := (frame?_eq_some.1 hframe).unique hat
  have hspared := hspared.resolve_left fun ⟨value, hvalue⟩ ↦ hfailed value hvalue
  rcases (act?_move hact).on_group hrun.grouped hbefore halone.2 with
    ⟨other, place, worker, stage, after, hindex, -, -, hleft, -⟩ | ⟨⟨after, hafter, halike⟩, -⟩
  · have hmem := hleft.mem_places hindex
    rw [hover] at hmem
    cases hmem
  · refine ⟨after, hafter, ?_, (hrun.next trivial hact).inFlight_eq_zero hafter hover⟩
    exact (hspared.mono (act?_accounts hact).1).congr halike.settings halike.cache halike.absences

end

/-- A node that fetches every key from a peer has one lasting value and one that has expired. -/
def stocking : List Action :=
  [.join (.alone "a" 1 fun _ ↦ 0) .external "/" 1000, .changePeers 0 (.set ["b"]),
    .create 0 "g" { GroupSettings.default with negativeTtl := some 1000 },
    .get 0 0 "m" true false none, .step 0, .step 0, .step 0,
    .answerFetch 0 (.ok (.lasting "v".toUTF8)), .step 0, .step 0,
    .get 0 0 "k" true false none, .step 1, .step 1, .step 1,
    .answerFetch 1 (.ok (.make 0 "w".toUTF8 (some 5))), .step 1, .step 1, .advance 5]

/-- Nothing is under way on the group of the node. -/
def stocked : Cluster :=
  (empty.actAll? stocking).get (by decide +kernel)

/-- A get for the expired key has begun. -/
def missing : Cluster :=
  (stocked.act? (.get 0 0 "k" true false none)).get (by decide +kernel)

/-- The peer has answered the get that there is no value. -/
def missed : Cluster :=
  (missing.actAll? [.step 2, .step 2, .step 2, .answerFetch 2 (.error (.notFound "k")),
    .step 2]).get (by decide +kernel)

/-- The get has ended. -/
def ended : Cluster :=
  (missed.act? (.step 2)).get (by decide +kernel)

/-- The get ended without a value. The other key is still held, and the expired entry is gone. -/
theorem failure_leaves_no_trace_expired :
    ∃ before after, stocked.groups[0]? = some before ∧ ended.groups[0]? = some after ∧
      (before.cache.entries .hot).map Entry.key = ["m", "k"] ∧
      (after.cache.entries .hot).map Entry.key = ["m"] ∧
      after.Spared before "k" ended.now (some (.error (.notFound "k"))) ∧
      after.flights.inFlight = 0 := by
  have hrun : Runs (fun _ _ ↦ True) empty stocked :=
    Runs.here.complying (by decide +kernel) (Option.some_get _).symm
  have hbegun : stocked.act? (.get 0 0 "k" true false none) = some missing :=
    (Option.some_get _).symm
  have hcourse : Runs (Alone 0 2 0) missing missed :=
    Runs.here.complying (by decide +kernel) (Option.some_get _).symm
  have hcame : (missed.frame? 2 0).map (fun frame ↦ (frame.key, frame.stage.outcome?)) =
      some ("k", some (.error (.notFound "k"))) := by decide +kernel
  obtain ⟨frame, hframe, hcame⟩ := Option.map_eq_some_iff.1 hcame
  obtain ⟨hkey, houtcome⟩ := Prod.mk.inj hcame
  have hact : missed.act? (.step 2) = some ended := (Option.some_get _).symm
  have hstocked : (stocked.groups[0]?).map (fun group ↦
      (group.cache.entries .hot).map Entry.key) = some ["m", "k"] := by decide +kernel
  have hended : (ended.groups[0]?).map (fun group ↦
      (group.cache.entries .hot).map Entry.key) = some ["m"] := by decide +kernel
  obtain ⟨before, hbefore, hstocked⟩ := Option.map_eq_some_iff.1 hstocked
  obtain ⟨after, hafter, hspared, hidle⟩ :=
    hrun.failure_leaves_no_trace hbefore (by decide +kernel) (by decide) hbegun hcourse hframe
      (fun _ ↦ by simp [houtcome]) (by decide +kernel) hact (by decide +kernel)
  rw [hafter] at hended
  rw [hkey, houtcome] at hspared
  exact ⟨before, after, hbefore, hafter, hstocked, Option.some.inj hended, hspared, hidle⟩

end Cluster

end ReadThrough
