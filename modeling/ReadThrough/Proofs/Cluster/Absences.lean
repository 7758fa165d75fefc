import ReadThrough.Proofs.Cluster.Contents

/-!
# Remembered absences

A get consults the remembered absences before it asks the flight table, and a leader looks only at
the tiers once more before it makes a call. A get whose flight is lost asks the flight table again
with what it found before, and where it takes the lead then, it makes a call for a key that may be
remembered as absent by now. The main statement is `absences_respected`: as long as no get takes the
lead for such a key, no call is made for one and no key is both live and remembered as absent; and
wherever a get does, a call is made.
-/

namespace ReadThrough

/-- A group remembers that a key has no value, at an instant before the memory expires. -/
def Group.RemembersAbsent (group : Group) (key : String) (now : Millis) : Prop :=
  ∃ absences ∈ group.absences, ∃ entry ∈ absences.entries,
    entry.key = key ∧ entry.value.expired now = false

instance (group : Group) (key : String) (now : Millis) :
    Decidable (group.RemembersAbsent key now) :=
  decidable_of_iff
    ((group.absences.any fun absences ↦ absences.entries.any fun entry ↦
      entry.key = key && !entry.value.expired now) = true)
    (by simp [Group.RemembersAbsent, Option.any_eq_true])

/-- A group that remembers a key as absent now did so before, if it has the entry. -/
theorem Group.RemembersAbsent.of_marks {group : Group} {entry : Entry} {now later : Millis}
    (h : group.Marks entry) (hle : now ≤ later) (hlive : entry.value.expired later = false) :
    group.RemembersAbsent entry.key now := by
  obtain ⟨absences, hsome, hmem⟩ := h
  exact ⟨absences, hsome, entry, hmem, rfl, Value.expired_eq_false_of_le hle hlive⟩

/-- An entry by which a group remembers a key as absent. -/
theorem Group.RemembersAbsent.exists_marks {group : Group} {key : String} {now : Millis}
    (h : group.RemembersAbsent key now) :
    ∃ entry, group.Marks entry ∧ entry.key = key ∧ entry.value.expired now = false := by
  obtain ⟨absences, hsome, entry, hmem, hkey, hlive⟩ := h
  exact ⟨entry, ⟨absences, hsome, hmem⟩, hkey, hlive⟩

/-- Whether a frame is about to ask the flight table. -/
def Frame.contends (frame : Frame) (group : Group) : Bool :=
  match frame.stage with
  | .missed => true
  | .waiting flight =>
      match group.flights.status flight with
      | .lost => true
      | _ => false
  | _ => false

theorem Frame.contends_iff {frame : Frame} {group : Group} :
    frame.contends group = true ↔ Cluster.Contends frame group := by
  unfold contends Cluster.Contends
  constructor
  · intro h
    split at h
    · next hstage => exact .inl hstage
    · next flight hstage =>
      split at h
      · next hlost => exact .inr ⟨flight, hstage, hlost⟩
      · cases h
    · cases h
  · rintro (hstage | ⟨flight, hstage, hlost⟩)
    · rw [hstage]
    · rw [hstage]
      dsimp only
      rw [hlost]

namespace Cluster

/-- The frame that takes the lead of a new flight by an action, with its group. -/
def takesLead? (c : Cluster) : Action → Option (Frame × Group)
  | .step number => do
      let frame ← (← c.tasks[number]?).frames.head?
      let group ← c.groups[frame.group]?
      if frame.contends group && (group.flights.records.lookup frame.key).isNone then
        some (frame, group)
      else none
  | _ => none

/-- A get takes the lead of a flight for a key that its group remembers as absent. -/
def Overlooks (c : Cluster) (action : Action) : Prop :=
  ∃ leader ∈ c.takesLead? action, leader.2.RemembersAbsent leader.1.key c.now

instance (c : Cluster) (action : Action) : Decidable (c.Overlooks action) :=
  inferInstanceAs (Decidable (∃ _ ∈ _, _))

/-- No get takes the lead of a flight for a key that its group remembers as absent. -/
def Heedful (c : Cluster) (action : Action) : Prop :=
  ¬c.Overlooks action

instance (c : Cluster) (action : Action) : Decidable (Heedful c action) :=
  inferInstanceAs (Decidable (¬_))

variable {c following : Cluster} {action : Action} {number : Nat}

theorem takesLead?_eq_some {frame : Frame} {group : Group} :
    c.takesLead? (.step number) = some (frame, group) ↔
      ∃ task, c.tasks[number]? = some task ∧ task.frames.head? = some frame ∧
        c.groups[frame.group]? = some group ∧ Contends frame group ∧
        group.flights.records.lookup frame.key = none := by
  simp only [takesLead?, bind, Option.bind_eq_some_iff, Option.ite_none_right_eq_some,
    Option.some.injEq, Prod.mk.injEq, Bool.and_eq_true, Frame.contends_iff,
    Option.isNone_iff_eq_none]
  constructor
  · rintro ⟨task, htask, found, hfound, served, hserved, ⟨hcontends, hfree⟩, rfl, rfl⟩
    exact ⟨task, htask, hfound, hserved, hcontends, hfree⟩
  · rintro ⟨task, htask, hframe, hgroup, hcontends, hfree⟩
    exact ⟨task, htask, frame, hframe, group, hgroup, ⟨hcontends, hfree⟩, rfl, rfl⟩

/-! ## The invariant -/

/-- What holds as long as no get takes the lead for a key that is remembered as absent. -/
structure Respectful (c : Cluster) : Prop where
  working : ∀ (number : Nat) (frame : Frame) (group : Group), c.HasFrame number frame →
    frame.AtWork → c.groups[frame.group]? = some group →
    ¬group.RemembersAbsent frame.key c.now
  apart : ∀ (index : Nat) (group : Group) (key : String), c.groups[index]? = some group →
    group.RemembersAbsent key c.now → ∀ tier value, ¬group.cache.Live tier key value c.now

theorem respectful_empty : Respectful empty :=
  ⟨by simp [HasFrame, empty], by simp [empty]⟩

/-- A turn takes a frame to work only if it was at work before, or takes the lead. -/
theorem Turn.atWork {task : Task} {frame : Frame} {group after : Group} {stage : FrameStage}
    (turn : Turn c number task frame group action stage after)
    (hwork : ({ frame with stage } : Frame).AtWork) :
    frame.AtWork ∨ action = .step number ∧ Contends frame group ∧
      ∀ flight, (frame.key, flight) ∉ group.flights.records := by
  obtain ⟨led, errand, hled, hbusy⟩ := hwork
  have hworking : ∀ {flight : Nat} {errand : Errand}, frame.stage = .leading flight errand →
      (∀ outcome, errand ≠ .done outcome) → frame.AtWork :=
    fun hstage hbusy ↦ ⟨_, _, hstage, hbusy⟩
  cases turn with
  | led hcontends hfree => exact .inr ⟨rfl, hcontends, hfree⟩
  | found flight value tier hstage hpeek => exact .inl (hworking hstage (by simp))
  | loads flight node hstage => exact .inl (hworking hstage (by simp))
  | fetches flight node peer hstage => exact .inl (hworking hstage (by simp))
  | refused flight node peer sharesToken fault hstage => exact .inl (hworking hstage (by simp))
  | loaded flight answer hstage => exact .inl (hworking hstage (by simp))
  | fetched flight peer answer hstage => exact .inl (hworking hstage (by simp))
  | answered | missed | joined | took | landed => cases hled

/-- A frame that is at work after a heedful action was at work before, or took the lead for a key
that is not remembered as absent. -/
theorem Move.atWork (move : Move c action following) (hheedful : Heedful c action)
    (h : Respectful c) {frame : Frame} (hframe : following.HasFrame number frame)
    (hwork : frame.AtWork) {group : Group} (hgroup : c.groups[frame.group]? = some group) :
    ¬group.RemembersAbsent frame.key c.now := by
  rcases move.frames hframe with hold | hasked | ⟨before, stage, hbefore, rfl, hrestages⟩
  · exact h.working number frame group hold hwork hgroup
  · obtain ⟨flight, errand, hstage, -⟩ := hwork
    cases hasked.symm.trans hstage
  · cases hrestages with
    | turned task served after _ htask hhead hserved hturn =>
        rw [hgroup] at hserved
        cases hserved
        rcases hturn.atWork hwork with hworked | ⟨rfl, hcontends, hfree⟩
        · exact h.working number before group hbefore hworked hgroup
        · intro hremembers
          refine hheedful ⟨(before, group), takesLead?_eq_some.2
            ⟨task, htask, hhead, hgroup, hcontends, ?_⟩, hremembers⟩
          cases hlookup : group.flights.records.lookup before.key with
          | none => rfl
          | some flight => exact absurd (mem_of_lookup hlookup) (hfree flight)
    | forwarded served flight peer hserved hstage hpeek =>
        exact h.working number before group hbefore ⟨flight, _, hstage, by simp⟩ hgroup
    | fetched flight peer taken hstage =>
        exact h.working number before group hbefore ⟨flight, _, hstage, by simp⟩ hgroup
    | heeded =>
        obtain ⟨flight, errand, hstage, -⟩ := hwork
        cases hstage

/-- A heedful action keeps a cluster respectful. -/
theorem Respectful.act (h : Respectful c) (horderly : Orderly c) (hheedful : Heedful c action)
    (hact : c.act? action = some following) : Respectful following := by
  have move := act?_move hact
  have hnow := (act?_notes hact).1
  -- an answer is taken in by a frame at work, so its key is neither live nor remembered as absent
  have hworks : ∀ {fill : Fill} {group : Group}, c.fill? action = some fill →
      c.groups[fill.group]? = some group → ¬group.RemembersAbsent fill.key c.now := by
    intro fill group hfill hgroup
    obtain ⟨other, frame, hframe, hcalls, hindex, hkey⟩ := calls_of_fill? hact hfill
    rw [← hkey]
    exact h.working other frame group hframe hcalls.atWork (hindex ▸ hgroup)
  constructor
  · intro number frame after hframe hwork hafter hremembers
    obtain ⟨entry, hmarks, hkey, hlive⟩ := hremembers.exists_marks
    have hold : ∀ {group : Group}, c.groups[frame.group]? = some group → ¬group.Marks entry :=
      fun hgroup hmarks ↦ move.atWork hheedful h hframe hwork hgroup
        (hkey ▸ Group.RemembersAbsent.of_marks hmarks hnow hlive)
    cases move.restocks hafter with
    | made name settings heq =>
        exact (Group.create_bare name settings).2.2 entry (heq ▸ hmarks)
    | kept group hgroup hless => exact hold hgroup (hless.marks entry hmarks)
    | filled group fill hgroup hfill hindex htakes hconcludes =>
        rcases htakes.marks entry hmarks with hbefore | ⟨hfillKey, -⟩
        · exact hold hgroup hbefore
        · rw [← hfillKey, hkey] at hconcludes
          exact (horderly.led.move move).not_concludes hframe hwork hconcludes
  · intro index after key hafter hremembers tier value ⟨hmem, hunexpired⟩
    obtain ⟨entry, hmarks, rfl, hlive⟩ := hremembers.exists_marks
    have hremembered : ∀ {group : Group}, group.Marks entry →
        group.RemembersAbsent entry.key c.now :=
      fun hmarks ↦ .of_marks hmarks hnow hlive
    have hlived : ∀ {group : Group}, ⟨entry.key, value⟩ ∈ group.cache.entries tier →
        group.cache.Live tier entry.key value c.now :=
      fun hmem ↦ ⟨hmem, Value.expired_eq_false_of_le hnow hunexpired⟩
    cases move.restocks hafter with
    | made name settings heq =>
        exact (Group.create_bare name settings).2.2 entry (heq ▸ hmarks)
    | kept group hgroup hless =>
        exact h.apart index group entry.key hgroup (hremembered (hless.marks entry hmarks)) tier
          value (hlived (hless.entries tier _ hmem))
    | filled group fill hgroup hfill hindex htakes =>
        subst hindex
        rcases htakes.marks entry hmarks with hmarked | ⟨hkey, absent, habsent⟩
        · rcases htakes.entries tier _ hmem with hheld | ⟨-, hkey, -⟩
          · exact h.apart fill.group group entry.key hgroup (hremembered hmarked) tier value
              (hlived hheld)
          · exact hworks hfill hgroup (hkey ▸ hremembered hmarked)
        · rcases htakes.entries tier _ hmem with hheld | ⟨-, -, hok⟩
          · exact horderly.not_live_of_fill? hact hfill hgroup tier value (hkey ▸ hlived hheld)
          · rw [habsent] at hok
            cases hok

/-- A heedful run leads to clusters that are respectful. -/
theorem Runs.respectful (run : Runs Heedful empty c) : Respectful c := by
  induction run with
  | here => exact respectful_empty
  | next run hheedful hact ih => exact ih.act run.orderly hheedful hact

/-- Where a key is remembered as absent, the tiers show nothing for it. -/
theorem Respectful.peek_eq_none (h : Respectful c) (horderly : Orderly c) {index : Nat}
    {group : Group} {key : String} (hgroup : c.groups[index]? = some group)
    (hremembers : group.RemembersAbsent key c.now) : group.cache.peek key c.now = none := by
  cases hpeek : group.cache.peek key c.now with
  | none => rfl
  | some found =>
      obtain ⟨value, tier⟩ := found
      have hlive := Tiered.live_of_peek (horderly.tidy index group hgroup).sound hpeek
      exact absurd hlive (h.apart index group key hgroup hremembers tier value)

/-! ## The call that a new leader makes -/

/-- A call for a key is the first thing that was recorded since. -/
def Started (c : Cluster) (call : String × String × String) (following : Cluster) : Prop :=
  ∃ event rest, following.events.toList = c.events.toList ++ event :: rest ∧
    event.call? = some call

/-- What is recorded after a call comes after it. -/
theorem started_of_record {event : Event} {call : String × String × String}
    (hcall : event.call? = some call) (h : Notes (c.record event) (fun _ ↦ True) following) :
    Started c call following := by
  obtain ⟨fresh, hfresh, -⟩ := h.events
  refine ⟨event, fresh, ?_, hcall⟩
  rw [hfresh, Cluster.record, Array.toList_push, List.append_assoc, List.singleton_append]

/-- A leader that finds nothing in the tiers makes a call. -/
theorem dispatch_started {frame : Frame} {group : Group} {node : Node}
    (hpeek : group.cache.peek frame.key c.now = none) (hnode : c.nodes[frame.node]? = some node)
    (outer : List Frame) (flight : Nat) :
    Started c (node.id, group.name, frame.key) (c.dispatch number frame outer group flight) := by
  have hsilent : ∀ {event : Event}, Notes (c.record event) (fun _ ↦ True) (c.record event) :=
    .silent rfl rfl
  unfold dispatch
  simp only [hpeek, hnode]
  split
  · exact started_of_record rfl (forward_notes hsilent _ _ (by simp))
  · exact started_of_record rfl (hsilent.congr rfl rfl)
  · exact started_of_record (by simp [Event.call?, hnode]) (hsilent.congr rfl rfl)

/-- A task whose innermost frame takes the lead of a flight for a key that the tiers do not show
makes a call for it, the remembered absences being left as they are. -/
theorem started_of_takesLead? {frame : Frame} {group : Group} {node : Node}
    (hleads : c.takesLead? (.step number) = some (frame, group))
    (hpeek : group.cache.peek frame.key c.now = none) (hnode : c.nodes[frame.node]? = some node) :
    ∃ middle following led, c.act? (.step number) = some middle ∧
      middle.act? (.step number) = some following ∧ middle.now = c.now ∧
      middle.groups[frame.group]? = some led ∧ led.absences = group.absences ∧
      Started middle (node.id, group.name, frame.key) following := by
  obtain ⟨task, htask, hhead, hgroup, hcontends, hfree⟩ := takesLead?_eq_some.1 hleads
  obtain ⟨outer, hframes⟩ := List.head?_eq_some_iff.1 hhead
  have hentered : c.step? number = some (c.enter number frame outer group) := by
    rcases hcontends with hstage | ⟨flight, hstage, hlost⟩
    · simp [step?, htask, hframes, hgroup, hstage]
    · simp [step?, htask, hframes, hgroup, hstage, hlost]
  obtain ⟨flight, flights, hrole⟩ :
      ∃ flight flights, group.flights.enter frame.key = (.lead flight, flights) := by
    simp [FlightTable.enter, hfree]
  -- taking the lead changes the flight table of the group and the stage of the frame, nothing else
  let leader : Frame := { frame with stage := .leading flight .recheck }
  let led : Group := { group with flights }
  obtain ⟨middle, hmiddle, hreframes, hled⟩ : ∃ middle, c.step? number = some middle ∧
      c.Reframes number middle (leader :: outer) ∧ middle.groups[frame.group]? = some led := by
    refine ⟨_, hentered, ?_, ?_⟩ <;> rw [enter, hrole]
    · exact ⟨rfl, rfl, rfl⟩
    · exact Array.getElem?_setIfInBounds_self_of_lt (Array.getElem?_eq_some_iff.1 hgroup).1
  have hnext : middle.step? number = some (middle.dispatch number leader outer led flight) := by
    simp [step?, hreframes.getElem? htask, leader, hled]
  exact ⟨middle, _, led, hmiddle, hnext, hreframes.now, hled, rfl,
    dispatch_started (hreframes.now ▸ hpeek) (hreframes.nodes ▸ hnode) outer flight⟩

/-! ## Absences and calls -/

/-- Take a cluster that a run leads to in which no get takes the lead of a flight for a key that is
remembered as absent. Such a key is called for by no action, no call for it waits for its answer,
and no tier holds anything live for it. Wherever a get takes the lead for such a key, its next step
calls for it, remembered as it still is. -/
theorem absences_respected (run : Runs Heedful empty c) :
    (∀ (action : Action) (following : Cluster), c.act? action = some following →
      ∃ fresh, following.events.toList = c.events.toList ++ fresh ∧
        ∀ event ∈ fresh, ∀ call, event.call? = some call →
          ∃ number frame group, action.mover? = some number ∧ c.MayCall number frame group ∧
            call = (c.idOf frame.node, group.name, frame.key) ∧
            ¬group.RemembersAbsent frame.key c.now) ∧
    (∀ (number : Nat) (frame : Frame) (group : Group), c.HasFrame number frame → frame.Calls →
      c.groups[frame.group]? = some group → ¬group.RemembersAbsent frame.key c.now) ∧
    (∀ (index : Nat) (group : Group) (key : String), c.groups[index]? = some group →
      group.RemembersAbsent key c.now → ∀ tier value, ¬group.cache.Live tier key value c.now) ∧
    ∀ (number : Nat) (frame : Frame) (group : Group) (node : Node),
      c.takesLead? (.step number) = some (frame, group) →
      group.RemembersAbsent frame.key c.now → c.nodes[frame.node]? = some node →
      ∃ middle following led, c.act? (.step number) = some middle ∧
        middle.act? (.step number) = some following ∧
        middle.groups[frame.group]? = some led ∧ led.RemembersAbsent frame.key middle.now ∧
        Started middle (node.id, group.name, frame.key) following := by
  have h := run.respectful
  refine ⟨?_, ?_, h.apart, ?_⟩
  · intro action following hact
    obtain ⟨-, fresh, hfresh, hdue⟩ := act?_notes hact
    refine ⟨fresh, hfresh, fun event hevent call hcall ↦ ?_⟩
    obtain ⟨number, hmover, frame, group, hmay, heq⟩ := hdue event hevent call hcall
    exact ⟨number, frame, group, hmover, hmay, heq,
      h.working number frame group hmay.mem hmay.atWork hmay.served⟩
  · intro number frame group hframe hcalls hgroup
    exact h.working number frame group hframe hcalls.atWork hgroup
  · intro number frame group node hleads hremembers hnode
    obtain ⟨-, -, -, hgroup, -⟩ := takesLead?_eq_some.1 hleads
    have hpeek := h.peek_eq_none run.orderly hgroup hremembers
    obtain ⟨middle, following, led, hmiddle, hfollowing, hnow, hled, habsences, hstarted⟩ :=
      started_of_takesLead? hleads hpeek hnode
    refine ⟨middle, following, led, hmiddle, hfollowing, hled, ?_, hstarted⟩
    rwa [Group.RemembersAbsent, habsences, hnow]

/-- Three gets for one key of a group that remembers absences: the first one leads and is given up
while the loader is called, and the second one leads then. -/
def takenOver : List Action :=
  [.join (.alone "a" 1 fun _ ↦ 0) .absent "/" 1000,
    .create 0 "g" { GroupSettings.default with negativeTtl := some 1000 },
    .get 0 0 "k" true false none, .get 0 0 "k" true false none, .get 0 0 "k" true false none,
    .step 0, .step 0, .step 0, .step 1, .step 1, .step 2, .step 2, .drop 0, .step 1]

/-- The second get is about to call the loader. -/
def recalling : Cluster :=
  (empty.actAll? takenOver).get (by decide +kernel)

/-- The loader has answered the second get that there is no value, and that get has landed its
flight. -/
def remembering : Cluster :=
  (recalling.actAll? [.step 1, .answerLoad 1 (.error .notFound), .step 1]).get (by decide +kernel)

theorem runs_recalling : Runs Heedful empty recalling :=
  Runs.here.complying (by decide +kernel) (Option.some_get _).symm

theorem runs_remembering : Runs Heedful empty remembering :=
  runs_recalling.complying (by decide +kernel) (Option.some_get _).symm

/-- The second get calls the loader for a key that is not remembered as absent. Once the loader has
answered that there is no value, nothing is live for the key. The third get leads then, and calls
the loader again. -/
theorem absences_respected_three :
    (∃ following, recalling.act? (.step 1) = some following ∧
      following.events.toList = recalling.events.toList ++ [.load "a" "g" "k"] ∧
      ∃ frame group, recalling.MayCall 1 frame group ∧ frame.key = "k" ∧
        ¬group.RemembersAbsent frame.key recalling.now) ∧
    (∃ group, remembering.groups[0]? = some group ∧ group.RemembersAbsent "k" remembering.now ∧
      ∀ tier value, ¬group.cache.Live tier "k" value remembering.now) ∧
    ∃ middle following led, remembering.act? (.step 2) = some middle ∧
      middle.act? (.step 2) = some following ∧ middle.groups[0]? = some led ∧
      led.RemembersAbsent "k" middle.now ∧ Started middle ("a", "g", "k") following := by
  refine ⟨⟨_, rfl, rfl, ?_⟩, ⟨_, rfl, by decide +kernel, ?_⟩, ?_⟩
  · obtain ⟨fresh, hfresh, hcalls⟩ :=
      (absences_respected runs_recalling).1 (.step 1) _ (Option.some_get (by decide +kernel)).symm
    have hload : recalling.events.toList ++ [.load "a" "g" "k"] =
        recalling.events.toList ++ fresh := hfresh
    obtain rfl := List.append_cancel_left hload
    obtain ⟨number, frame, group, hmover, hmay, hcall, habsent⟩ :=
      hcalls _ List.mem_cons_self _ rfl
    cases hmover
    exact ⟨frame, group, hmay, (congrArg (fun call ↦ call.2.2) hcall).symm, habsent⟩
  · exact (absences_respected runs_remembering).2.2.1 0 _ "k" rfl (by decide +kernel)
  · exact (absences_respected runs_remembering).2.2.2 2 ⟨0, 0, "k", true, .waiting 0⟩ _ _ rfl
      (by decide +kernel) rfl

/-- The third get leads though its group remembers the key as absent. -/
def overlooking : Cluster :=
  (remembering.act? (.step 2)).get (by decide +kernel)

/-- A loader is called for a key that its group remembers as absent, and what it answers is live
while the group still does. -/
theorem absent_key_called :
    ∃ middle following last before after, Runs (fun _ _ ↦ True) empty middle ∧
      middle.groups[0]? = some before ∧ before.RemembersAbsent "k" middle.now ∧
      middle.act? (.step 2) = some following ∧ Started middle ("a", "g", "k") following ∧
      following.act? (.answerLoad 2 (.ok (.lasting "v".toUTF8))) = some last ∧
      last.groups[0]? = some after ∧ after.RemembersAbsent "k" last.now ∧
      after.cache.Live .main "k" (.lasting "v".toUTF8) last.now := by
  have hrun : Runs (fun _ _ ↦ True) empty overlooking :=
    (runs_remembering.mono fun _ _ _ ↦ trivial).next trivial (Option.some_get _).symm
  refine ⟨_, _, _, _, _, hrun, rfl, by decide +kernel, rfl, ⟨_, _, rfl, rfl⟩, rfl, rfl, ?_, ?_⟩
  · decide +kernel
  · decide +kernel

end Cluster

end ReadThrough
