import ReadThrough.Proofs.Cluster.Course
import ReadThrough.Proofs.Cluster.Frames
import ReadThrough.Proofs.Http.Transfer

/-!
# Copies of values that expire

The main statement is `no_copy_outlives_its_load`: whatever a tier gives out comes from a loader's
answer that has not expired by then, and every copy, however many nodes it came by, expires when
that answer does, or has expired already, just if every response on its way told the lifetime that
was left. A response tells it in a word, so one that does not fit a word may be cut short. The
invariant takes the past of a run for its verdict: a value may come out for a name and a key if it
has come from what a loader answered for them. Between nodes a value travels as it is, or as a
response that is read at the instant at which it was served.
-/

namespace ReadThrough

namespace Value

/-- How a value has come by an instant from the one that a loader answered at `start`: it was kept,
and at each hop, of which the latest one comes first, it was served and read by a peer. A hop is told
by what was served and when. -/
inductive Travels (origin : Value) (start : Millis) :
    Millis → List (Value × Millis) → Value → Prop where
  | loaded : Travels origin start start [] origin
  | kept {now later : Millis} {hops : List (Value × Millis)} {value : Value} :
      Travels origin start now hops value → now ≤ later → Travels origin start later hops value
  | served {now : Millis} {hops : List (Value × Millis)} {value : Value} :
      Travels origin start now hops value →
      Travels origin start now ((value, now) :: hops) (value.retold now)

/-- What a value has of the one that it is a copy of, which was made at `start`: the same data, and
from `now` on no longer life. It has expired by now, or expires at the same instant just if its
lifetime was told at every hop. A lifetime that fits a word in the first place was. -/
structure Copies (origin : Value) (start now : Millis) (hops : List (Value × Millis))
    (value : Value) : Prop where
  data : value.data = origin.data
  within : ∀ later, now ≤ later → origin.expired later = true → value.expired later = true
  exact : value.expired now = true ∨
    (value.expiresAt = origin.expiresAt ↔ ∀ hop ∈ hops, hop.1.Told hop.2)
  told : (∀ instant ∈ origin.expiresAt, instant < start + UInt64.size) →
    ∀ hop ∈ hops, hop.1.Told hop.2

variable {origin value : Value} {start now : Nat} {hops : List (Value × Millis)}

/-- Before a copy expires its origin does not. -/
theorem Copies.unexpired (h : origin.Copies start now hops value)
    (hlive : value.expired now = false) : origin.expired now = false := by
  by_contra hexpired
  exact absurd (h.within now (Nat.le_refl now) (Bool.eq_true_of_not_eq_false hexpired))
    (by simp [hlive])

/-- What a peer reads of a copy, and has not expired, expires with the origin only if it does with
the copy, which expires between them. -/
theorem Copies.between (h : origin.Copies start now hops value)
    (hlive : (value.retold now).expired now = false)
    (hsame : (value.retold now).expiresAt = origin.expiresAt) :
    (value.retold now).expiresAt = value.expiresAt := by
  cases hinstant : value.expiresAt with
  | none => rw [expiresAt_retold, hinstant, Option.map_none]
  | some instant =>
      have hcopy := expiresAt_retold_some hinstant now
      have hahead : now < rebased now instant := by
        by_contra hover
        rw [(expired_iff hcopy now).2 (Nat.le_of_not_lt hover)] at hlive
        cases hlive
      have hover : value.expired (rebased now instant) = true :=
        h.within _ (Nat.le_of_lt hahead)
          ((expired_iff (hsame.symm.trans hcopy) _).2 (Nat.le_refl _))
      rw [expired_iff hinstant] at hover
      have hle := rebased_le now instant
      rw [hcopy, Option.some_inj]
      omega

/-- A lifetime that fits a word where it begins is told at every hop. -/
theorem Copies.told_now (h : origin.Copies start now hops value) (hstart : start ≤ now)
    (hfits : ∀ instant ∈ origin.expiresAt, instant < start + UInt64.size) : value.Told now := by
  cases hinstant : value.expiresAt with
  | none => exact told_of_lasting hinstant now
  | some instant =>
      refine told_of_lt hinstant ?_
      rcases h.exact with hexpired | hexact
      · exact Nat.lt_of_le_of_lt ((expired_iff hinstant now).1 hexpired)
          (Nat.lt_add_of_pos_right (by decide))
      · exact Nat.lt_of_lt_of_le (hfits instant (hexact.2 (h.told hfits) ▸ hinstant))
          (Nat.add_le_add_right hstart UInt64.size)

theorem Travels.start_le (h : origin.Travels start now hops value) : start ≤ now := by
  induction h with
  | loaded => exact Nat.le_refl start
  | kept _ hle ih => exact Nat.le_trans ih hle
  | served _ ih => exact ih

/-- What a peer reads of a copy is one of the same origin, by one hop more. -/
theorem Copies.retold (h : origin.Copies start now hops value) (hstart : start ≤ now) :
    origin.Copies start now ((value, now) :: hops) (value.retold now) where
  data := h.data
  within := fun later hlater hexpired ↦ expired_retold hlater (h.within later hlater hexpired)
  exact := by
    cases hlive : (value.retold now).expired now with
    | true => exact .inl rfl
    | false =>
        have hhop := (retold_exact value now).resolve_left (by simp [hlive])
        have hexact := h.exact.resolve_left fun hexpired ↦ by
          simp [expired_retold (Nat.le_refl now) hexpired] at hlive
        rw [List.forall_mem_cons, ← hhop, ← hexact]
        refine .inr ⟨fun hsame ↦ ?_, fun ⟨hcopy, hvalue⟩ ↦ hcopy.trans hvalue⟩
        have hcopy := h.between hlive hsame
        exact ⟨hcopy, hcopy.symm.trans hsame⟩
  told := fun hfits ↦ List.forall_mem_cons.2 ⟨h.told_now hstart hfits, h.told hfits⟩

/-- What has come from a value is a copy of it. -/
theorem Travels.copies (h : origin.Travels start now hops value) :
    origin.Copies start now hops value := by
  induction h with
  | loaded => exact ⟨rfl, fun _ _ h ↦ h, .inr (by simp), fun _ ↦ by simp⟩
  | kept _ hle ih =>
      exact ⟨ih.data, fun instant hinstant ↦ ih.within instant (Nat.le_trans hle hinstant),
        ih.exact.imp_left (expired_of_le hle), ih.told⟩
  | served htravels ih => exact ih.retold htravels.start_le

end Value

namespace Cluster

/-- A loader answered a value at an instant when it was called for a key of a group of a name. -/
def Loaded (past : List Moment) (name key : String) (origin : Value) (start : Millis) : Prop :=
  ∃ moment ∈ past, moment.before.now = start ∧ ∃ number frame group,
    moment.action = .answerLoad number (.ok origin) ∧
      moment.before.Innermost number frame group ∧ group.name = name ∧ frame.key = key

/-- A node served a value at an instant for a key of a group of a name: the get that it had begun
for the request came to the value. -/
def Dispatched (past : List Moment) (name key : String) (hop : Value × Millis) : Prop :=
  ∃ moment ∈ past, moment.before.now = hop.2 ∧ ∃ number task frame,
    moment.before.tasks[number]? = some task ∧ task.purpose = .serve name key ∧
      task.answer = none ∧ moment.before.FrameAt number 0 frame ∧
      frame.stage = .answered (.ok hop.1) ∧
      moment.after.answer? number = some (.served (.served hop.2 (.ok hop.1)))

/-- A value has come by an instant from what a loader answered for a key of a group of a name, by
hops at which nodes served it for them. -/
def Descends (past : List Moment) (now : Millis) (name key : String) (value : Value) : Prop :=
  ∃ origin start hops, Loaded past name key origin start ∧
    (∀ hop ∈ hops, Dispatched past name key hop) ∧ origin.Travels start now hops value

/-- A node gave a response at an instant to a request for a key of a group of a name. -/
def Responded (past : List Moment) (now : Millis) (name key : String)
    (response : Http.Response) : Prop :=
  ∃ moment ∈ past, moment.before.now = now ∧ ∃ number task,
    moment.before.tasks[number]? = some task ∧ task.purpose = .serve name key ∧
      task.answer = none ∧ moment.after.answer? number = some (.served response)

/-- A value that comes in from an external peer is read from a response that a node of the cluster
has given to a request for the key, and delivering it took no time. -/
def Moment.Relays (moment : Moment) (past : List Moment) : Prop :=
  ∀ number copy frame group, moment.action = .answerFetch number (.ok copy) →
    moment.before.Innermost number frame group →
      ∃ response peer url, Responded past moment.before.now group.name frame.key response ∧
        Http.readReply moment.before.now peer url frame.key (.whole response) = .ok copy

/-- Nodes of a cluster get values from each other alone. -/
def Relayed (past : List Moment) : Prop :=
  ∀ moment earlier, moment :: earlier <:+ past → moment.Relays earlier

/-- A get comes to a value from the tiers by what happens: its group answers it, or it leads a
flight and finds the value as it looks at the tiers once more. -/
def Moment.Reads (moment : Moment) (number height : Nat) (frame : Frame) (value : Value) : Prop :=
  moment.before.FrameAt number height frame ∧
    (frame.stage = .asked ∧
        moment.after.FrameAt number height { frame with stage := .answered (.ok value) } ∨
      ∃ flight, frame.stage = .leading flight .recheck ∧
        moment.after.FrameAt number height
          { frame with stage := .leading flight (.done (.ok value)) })

variable {c following : Cluster} {past : List Moment} {action : Action} {number : Nat}
  {name key : String} {value : Value} {now : Millis}

/-! ## The past as a verdict -/

theorem Descends.later {later : Millis} (h : Descends past now name key value) (hle : now ≤ later) :
    Descends past later name key value := by
  obtain ⟨origin, start, hops, hloaded, hdispatched, htravels⟩ := h
  exact ⟨origin, start, hops, hloaded, hdispatched, htravels.kept hle⟩

theorem Dispatched.cons {hop : Value × Millis} (h : Dispatched past name key hop)
    (moment : Moment) : Dispatched (moment :: past) name key hop := by
  obtain ⟨found, hmem, hserved⟩ := h
  exact ⟨found, List.mem_cons_of_mem _ hmem, hserved⟩

theorem Descends.cons (h : Descends past now name key value) (moment : Moment) :
    Descends (moment :: past) now name key value := by
  obtain ⟨origin, start, hops, ⟨found, hmem, hloaded⟩, hdispatched, htravels⟩ := h
  exact ⟨origin, start, hops, ⟨found, List.mem_cons_of_mem _ hmem, hloaded⟩,
    fun hop hhop ↦ (hdispatched hop hhop).cons moment, htravels⟩

/-- What a peer reads of a value that was served has come from the same loader. -/
theorem Descends.retold (h : Descends past now name key value)
    (hdispatched : Dispatched past name key (value, now)) :
    Descends past now name key (value.retold now) := by
  obtain ⟨origin, start, hops, hloaded, hearlier, htravels⟩ := h
  exact ⟨origin, start, (value, now) :: hops, hloaded,
    List.forall_mem_cons.2 ⟨hdispatched, hearlier⟩, htravels.served⟩

/-- The values that may come out are those that have come from what loaders answered. -/
def descended (past : List Moment) (now : Millis) : Verdict :=
  fun name key outcome ↦ ∀ value, outcome = .ok value → Descends past now name key value

theorem lenient_descended (past : List Moment) (now : Millis) : (descended past now).Lenient :=
  ⟨fun _ _ _ heq ↦ (nomatch heq), fun _ _ _ _ _ heq ↦ (nomatch heq)⟩

/-- What holds of every cluster that a run leads to: whatever values it holds have come from what
loaders answered, tasks are for what they were requested for, and every response to a request is one
to such a value, or to a fault. -/
structure Traced (keys : Nat → Nat → String) (goals : Nat → String × String) (c : Cluster)
    (past : List Moment) : Prop where
  sound : Sound (descended past c.now) keys goals c
  goal : ∀ (number : Nat) (task : Task) (name key : String), c.tasks[number]? = some task →
    task.purpose = .serve name key → goals number = (name, key)
  responses : ∀ (now : Millis) (name key : String) (response : Http.Response),
    Responded past now name key response →
    ∃ outcome, response = .served now outcome ∧ ∀ value, outcome = .ok value →
      Descends past now name key value ∧ Dispatched past name key (value, now)

/-- A new task that serves a request begins on the group that is registered under the name. -/
theorem Move.begun (move : Move c action following) {task : Task}
    (htask : following.tasks[number]? = some task) (hnew : c.tasks.size ≤ number)
    (hpurpose : task.purpose = .serve name key) :
    ∃ node index, following.group? node name = some index ∧
      ∃ frame ∈ task.frames, frame.group = index ∧ frame.key = key := by
  have hsame (hsize : following.tasks.size = c.tasks.size) : False := by
    have hlt := (Array.getElem?_eq_some_iff.1 htask).1
    omega
  have hpushed {new : Task} (htasks : following.tasks = c.tasks.push new) : task = new := by
    rcases cases_push (htasks ▸ htask) with rfl | hold
    · rfl
    · exact absurd (Array.getElem?_eq_some_iff.1 hold).1 (Nat.not_lt.2 hnew)
  cases move
  case asked =>
    obtain rfl := hpushed rfl
    cases hpurpose
  case responded =>
    obtain rfl := hpushed rfl
    cases hpurpose
  case requested node method path name key index group deadline hgroup hindex =>
    obtain rfl := hpushed rfl
    cases hpurpose
    exact ⟨node, index, hindex, _, List.mem_singleton_self _, rfl, rfl⟩
  case fired => exact (hsame (by simp [cancel, modifyTask])).elim
  case removed | cleared | added | created | rewired => exact (hsame rfl).elim
  case stayed hgroups htasks hnodes => exact (hsame (congrArg Array.size htasks)).elim
  all_goals exact (hsame (Retasks.size_eq (by assumption))).elim

section

variable {keys : Nat → Nat → String} {goals : Nat → String × String} {moment : Moment}

/-- What an external peer answers has come from what a loader answered. -/
theorem Traced.relayed (h : Traced keys goals moment.before past) (hrelays : moment.Relays past)
    {copy : Value} {frame : Frame} {group : Group}
    (haction : moment.action = .answerFetch number (.ok copy))
    (hinner : moment.before.Innermost number frame group) :
    Descends past moment.before.now group.name frame.key copy := by
  obtain ⟨response, peer, url, hresponded, hread⟩ := hrelays number copy frame group haction hinner
  obtain ⟨outcome, rfl, hserved⟩ := h.responses _ _ _ _ hresponded
  obtain ⟨value, rfl, rfl⟩ := Http.readReply_served hread
  obtain ⟨hdescends, hdispatched⟩ := hserved value rfl
  exact hdescends.retold hdispatched

/-- What an action takes in has come from what a loader answered. -/
theorem Traced.allows (h : Traced keys goals moment.before past) (hrelays : moment.Relays past) :
    (descended (moment :: past) moment.before.now).Allows moment.before moment.action := by
  cases haction : moment.action with
  | create => exact .inr fun key fault value heq ↦ nomatch heq
  | answerLoad number answer =>
      rintro frame group hinner value houtcome
      obtain rfl : answer = .ok value := by
        rcases answer with (_ | _) | found
        · cases houtcome
        · cases houtcome
        · rw [Except.ok.inj houtcome]
      exact ⟨value, moment.before.now, [], ⟨moment, List.mem_cons_self, rfl, number, frame, group,
        haction, hinner, rfl, rfl⟩, by simp, .loaded⟩
  | answerFetch number answer =>
      intro frame group hinner
      refine .inl ?_
      rintro copy rfl
      exact (h.relayed hrelays haction hinner).cons moment
  | _ => trivial

/-- A copy that is taken in from another node has come from what a loader answered. -/
theorem Traced.fetched (h : Traced keys goals moment.before past) (hrelays : moment.Relays past)
    {index : Nat}
    (hfill : moment.before.fill? moment.action = some ⟨index, key, .hot, .ok value⟩) :
    ∃ group, moment.before.groups[index]? = some group ∧
      Descends past moment.before.now group.name key value := by
  cases haction : moment.action with
  | answerLoad number answer => simp [haction, fill?, Option.bind_eq_some_iff] at hfill
  | answerFetch number answer =>
      simp only [haction, fill?, bind, Option.bind_eq_some_iff, Option.some.injEq, Fill.mk.injEq,
        true_and] at hfill
      obtain ⟨task, htask, frame, hhead, rfl, rfl, rfl⟩ := hfill
      obtain ⟨outer, hframes⟩ := List.head?_eq_some_iff.1 hhead
      obtain ⟨group, hgroup, -⟩ :=
        h.sound.frames number task htask frame (hframes ▸ List.mem_cons_self)
      exact ⟨group, hgroup, h.relayed hrelays haction ⟨task, outer, htask, hframes, hgroup⟩⟩
  | step number =>
      simp only [haction, fill?, bind, Option.bind_eq_some_iff] at hfill
      obtain ⟨task, htask, hfill⟩ := hfill
      split at hfill
      · next frame parent outer hframes =>
        split at hfill
        · next outcome flight peer hstage hparent =>
          cases hfill
          obtain ⟨group, hgroup, hname, hkey, -⟩ := h.sound.frames number task htask parent
            (hframes ▸ List.mem_cons_of_mem _ List.mem_cons_self)
          obtain ⟨inner, -, hname', hkey', hfits⟩ :=
            h.sound.frames number task htask frame (hframes ▸ List.mem_cons_self)
          -- both frames are for the goal of the task
          rw [hstage] at hfits
          have hdescends : Descends past moment.before.now inner.name frame.key value :=
            hfits value rfl
          rw [hname'.trans hname.symm, hkey'.trans hkey.symm] at hdescends
          exact ⟨group, hgroup, hdescends⟩
        · cases hfill
      · cases hfill
  | _ => simp [haction, fill?] at hfill

/-- A value that a get comes to from the tiers is live there. -/
theorem Moment.Reads.live {height : Nat} {frame : Frame}
    (h : moment.Reads number height frame value)
    (hact : moment.before.act? moment.action = some moment.after) :
    ∃ group tier, moment.before.groups[frame.group]? = some group ∧
      group.cache.Live tier frame.key value moment.before.now := by
  obtain ⟨c, action, following⟩ := moment
  have move := act?_move hact
  obtain ⟨hbefore, ⟨hasked, hafter⟩ | ⟨flight, hrechecks, hafter⟩⟩ := h
  · have hpassage := move.passes hbefore hafter (by simp [hasked]) (by simp)
    cases hpassage with
    | turned task group after _ htask hhead hgroup hturn =>
        cases hturn with
        | answered outcome after hstage hconsult =>
            obtain ⟨tier, hlive⟩ := Group.live_of_consult hconsult
            exact ⟨group, tier, hgroup, hlive⟩
        | took flight outcome hwaits => cases hasked.symm.trans hwaits
        | landed flight outcome hleads => cases hasked.symm.trans hleads
  · have hpassage := move.passes hbefore hafter (by simp [hrechecks]) (by simp)
    generalize hstage : FrameStage.leading flight (.done (.ok value)) = stage at hpassage
    cases hpassage with
    | turned task group after _ htask hhead hgroup hturn =>
        cases hturn with
        | found landing seen tier hleads hpeek =>
            cases hstage
            obtain ⟨tier, hmem⟩ := (Tiered.holds_of_peek hpeek).exists_entry
            exact ⟨group, tier, hgroup, hmem, Tiered.unexpired_of_peek hpeek⟩
        | refused landing node peer sharesToken fault hleads =>
            cases Group.eq_ok_of_takeFetched
              (Group.Fetched.eq_of_errand (FrameStage.leading.inj hstage).2.symm)
        | loaded landing answer hleads => cases hrechecks.symm.trans hleads
        | fetched landing peer answer hleads => cases hrechecks.symm.trans hleads
        | _ => cases hstage
    | forwarded => cases hstage
    | fetched group landing peer answer hleads => cases hrechecks.symm.trans hleads
    | heeded => cases hstage

/-- A response that is given to a request tells of a value that has come from what a loader answered,
and that the get for the request came to; or of a fault. -/
theorem Traced.responds (h : Traced keys goals c past) (hact : c.act? action = some following)
    {task : Task} {response : Http.Response} (htask : c.tasks[number]? = some task)
    (hpurpose : task.purpose = .serve name key) (hnone : task.answer = none)
    (hserved : following.answer? number = some (.served response)) :
    ∃ outcome, response = .served c.now outcome ∧ ∀ value, outcome = .ok value →
      Descends past c.now name key value ∧
        Dispatched (⟨c, action, following⟩ :: past) name key (value, c.now) := by
  rcases (act?_move hact).answered hserved with hold | ⟨found, outcome, hfound, heq, hcomes⟩ |
    ⟨_, hsize, -⟩
  · rw [answer?, htask] at hold
    cases hnone.symm.trans hold
  · cases htask.symm.trans hfound
    rw [hpurpose] at heq
    cases heq
    refine ⟨outcome, rfl, ?_⟩
    rintro value rfl
    obtain ⟨frame, hat, hanswered⟩ := hcomes.resolve_left nofun
    have hframe := hat
    obtain ⟨_, outer, hsame, hsuffix, -⟩ := hframe
    cases htask.symm.trans hsame
    obtain ⟨group, hgroup, hname, hkey, hfits⟩ :=
      h.sound.frames number task htask frame (hsuffix.subset List.mem_cons_self)
    rw [h.goal number task name key htask hpurpose] at hname hkey
    obtain rfl := hname
    obtain rfl := hkey
    rw [hanswered] at hfits
    have hanswer : following.answer? number = some (.served (.served c.now (.ok value))) := by
      rw [hserved]
    exact ⟨hfits value rfl, _, List.mem_cons_self, rfl, number, task, frame, htask, hpurpose,
      hnone, hat, hanswered, hanswer⟩
  · have hlt := (Array.getElem?_eq_some_iff.1 htask).1
    exact absurd hsize (Nat.ne_of_lt hlt)

/-- Every action keeps a cluster and its past traced. -/
theorem Traced.act (h : Traced keys goals c past) (hact : c.act? action = some following)
    (hrelays : Moment.Relays ⟨c, action, following⟩ past) :
    ∃ keys' goals', Traced keys' goals' following (⟨c, action, following⟩ :: past) := by
  have move := act?_move hact
  have hlonger {now : Millis} (name key : String) (outcome : Outcome)
      (hdescended : descended past now name key outcome) :
      descended (⟨c, action, following⟩ :: past) now name key outcome :=
    fun value heq ↦ (hdescended value heq).cons _
  obtain ⟨keys', goals', hsound, hgoals⟩ := (h.sound.mono hlonger).move (lenient_descended _ _)
    (Traced.allows h hrelays) move
  refine ⟨keys', goals', hsound.mono ?_, ?_, ?_⟩
  · exact fun name key outcome hdescended value heq ↦
      (hdescended value heq).later (act?_notes hact).1
  · intro number task name key htask hpurpose
    by_cases hold : number < c.tasks.size
    · have hbefore := Array.getElem?_eq_getElem hold
      obtain ⟨after, hafter, hcontinues⟩ := move.continues hbefore
      rw [htask] at hafter
      cases hafter
      rw [hgoals number hold]
      exact h.goal number _ name key hbefore (hcontinues.purpose.symm.trans hpurpose)
    · -- the registry names the group that a request begins on
      obtain ⟨node, index, hindex, frame, hmem, rfl, rfl⟩ :=
        move.begun htask (Nat.le_of_not_lt hold) hpurpose
      obtain ⟨found, hnode, hlookup⟩ := Option.bind_eq_some_iff.1 hindex
      obtain ⟨group, hgroup, rfl⟩ :=
        hsound.registry node found name frame.group hnode (mem_of_lookup hlookup)
      obtain ⟨hname, hkey, -⟩ := hsound.fits htask hmem hgroup
      exact Prod.ext hname.symm hkey.symm
  · rintro now name key response ⟨moment, hmem, rfl, number, task, htask, hpurpose, hnone, hserved⟩
    rcases List.mem_cons.1 hmem with rfl | hmem
    · obtain ⟨outcome, hsame, hcomes⟩ := h.responds hact htask hpurpose hnone hserved
      refine ⟨outcome, hsame, fun value heq ↦ ?_⟩
      obtain ⟨hdescends, hdispatched⟩ := hcomes value heq
      exact ⟨hdescends.cons _, hdispatched⟩
    · obtain ⟨outcome, hsame, hearlier⟩ := h.responses moment.before.now name key response
        ⟨moment, hmem, rfl, number, task, htask, hpurpose, hnone, hserved⟩
      refine ⟨outcome, hsame, fun value heq ↦ ?_⟩
      obtain ⟨hdescends, hdispatched⟩ := hearlier value heq
      exact ⟨hdescends.cons _, hdispatched.cons _⟩

end

/-- What holds of the cluster that a run from the empty one leads to. -/
theorem Course.traced (course : Course empty c past) (hrelayed : Relayed past) :
    ∃ keys goals, Traced keys goals c past := by
  induction course with
  | here =>
      refine ⟨fun _ _ ↦ "", fun _ ↦ ("", ""), sound_empty _ _ _, by simp [empty], ?_⟩
      rintro now name key response ⟨moment, hmem, -⟩
      cases hmem
  | @next middle following past action course hact ih =>
      have hearlier : Relayed past := fun moment earlier hsuffix ↦
        hrelayed moment earlier (hsuffix.trans (List.suffix_cons _ _))
      obtain ⟨keys, goals, htraced⟩ := ih hearlier
      exact htraced.act hact (hrelayed _ past List.suffix_rfl)

/-- What a tier has for a key has come from what a loader answered. -/
theorem Traced.held {keys : Nat → Nat → String} {goals : Nat → String × String}
    (h : Traced keys goals c past) {index : Nat} {group : Group} {tier : Tier}
    (hgroup : c.groups[index]? = some group) (hmem : ⟨key, value⟩ ∈ group.cache.entries tier) :
    Descends past c.now group.name key value := by
  have hholds : group.cache.Holds key value := by
    cases tier with
    | main => exact .inl hmem
    | hot => exact .inr hmem
  exact (h.sound.groups index group hgroup).held key value hholds value rfl

/-- Take a run on the nodes of which values come in from loaders and from each other alone. A get
that comes to a value from the tiers, at once or as it leads a flight and looks at them again, comes
to a copy of what a loader answered before for the key, and this has not expired by then. Every copy
that is taken in from another node expires no later than what a loader answered; it has expired by
then, or expires at that very instant just if every response that it came by told the lifetime that
was left. The same holds of what a tier has and gives out. -/
theorem no_copy_outlives_its_load (course : Course empty c past) (hrelayed : Relayed past) :
    (∀ moment earlier, moment :: earlier <:+ past →
      (∀ number height frame value, moment.Reads number height frame value →
        ∃ group origin start hops, moment.before.groups[frame.group]? = some group ∧
          Loaded earlier group.name frame.key origin start ∧
          (∀ hop ∈ hops, Dispatched earlier group.name frame.key hop) ∧
          origin.Travels start moment.before.now hops value ∧
          origin.Copies start moment.before.now hops value ∧
          origin.expired moment.before.now = false) ∧
      ∀ index key value,
        moment.before.fill? moment.action = some ⟨index, key, .hot, .ok value⟩ →
        ∃ group origin start hops, moment.before.groups[index]? = some group ∧
          Loaded earlier group.name key origin start ∧
          (∀ hop ∈ hops, Dispatched earlier group.name key hop) ∧
          origin.Travels start moment.before.now hops value ∧
          origin.Copies start moment.before.now hops value) ∧
    ∀ (index : Nat) (group : Group) (tier : Tier) (key : String) (value : Value),
      c.groups[index]? = some group → ⟨key, value⟩ ∈ group.cache.entries tier →
      ∃ origin start hops, Loaded past group.name key origin start ∧
        (∀ hop ∈ hops, Dispatched past group.name key hop) ∧
        origin.Travels start c.now hops value ∧ origin.Copies start c.now hops value := by
  refine ⟨fun moment earlier hsuffix ↦ ?_, ?_⟩
  · obtain ⟨hbefore, hact⟩ := course.before hsuffix
    obtain ⟨keys, goals, htraced⟩ :=
      hbefore.traced fun _ _ hwithin ↦
        hrelayed _ _ (hwithin.trans ((List.suffix_cons _ _).trans hsuffix))
    constructor
    · intro number height frame value hreads
      obtain ⟨group, tier, hgroup, hmem, hlive⟩ := hreads.live hact
      obtain ⟨origin, start, hops, hloaded, hdispatched, htravels⟩ := htraced.held hgroup hmem
      exact ⟨group, origin, start, hops, hgroup, hloaded, hdispatched, htravels, htravels.copies,
        htravels.copies.unexpired hlive⟩
    · intro index key value hfill
      obtain ⟨group, hgroup, origin, start, hops, hloaded, hdispatched, htravels⟩ :=
        htraced.fetched (hrelayed moment earlier hsuffix) hfill
      exact ⟨group, origin, start, hops, hgroup, hloaded, hdispatched, htravels, htravels.copies⟩
  · obtain ⟨keys, goals, htraced⟩ := course.traced hrelayed
    intro index group tier key value hgroup hmem
    obtain ⟨origin, start, hops, hloaded, hdispatched, htravels⟩ := htraced.held hgroup hmem
    exact ⟨origin, start, hops, hloaded, hdispatched, htravels, htravels.copies⟩

theorem relayed_nil : Relayed [] := by
  intro moment earlier hsuffix
  cases List.suffix_nil.1 hsuffix

theorem Relayed.cons {moment : Moment} (h : Relayed past) (hrelays : moment.Relays past) :
    Relayed (moment :: past) := by
  intro found earlier hsuffix
  rcases List.suffix_cons_iff.1 hsuffix with heq | hsuffix
  · cases heq
    exact hrelays
  · exact h found earlier hsuffix

theorem Moment.relays_of_silent {moment : Moment}
    (h : ∀ number copy, moment.action ≠ .answerFetch number (.ok copy)) : moment.Relays past :=
  fun number copy _ _ haction ↦ absurd haction (h number copy)

/-- A run goes on without a value that comes in from an external peer. -/
theorem Course.relaying {middle last : Cluster} (course : Course empty middle past)
    (hrelayed : Relayed past) {actions : List Action}
    (hsilent : ∀ action ∈ actions, ∀ number copy, action ≠ .answerFetch number (.ok copy))
    (hact : middle.actAll? actions = some last) :
    ∃ later, Course empty last (later ++ past) ∧ Relayed (later ++ past) ∧
      ∀ moment ∈ later, moment.action ∈ actions := by
  obtain ⟨later, hcourse, hactions⟩ := course.actAll hact
  refine ⟨later, hcourse, ?_, hactions⟩
  clear hcourse
  induction later with
  | nil => exact hrelayed
  | cons moment rest ih =>
      refine (ih fun other hmem ↦ hactions other (List.mem_cons_of_mem _ hmem)).cons ?_
      exact Moment.relays_of_silent (hsilent _ (hactions _ List.mem_cons_self))

/-- A value that expires at the instant 5. -/
def brief : Value :=
  ⟨"v".toUTF8, some 5⟩

/-- A value whose lifetime does not fit a word. -/
def distant : Value :=
  ⟨"v".toUTF8, some (UInt64.size + 13)⟩

/-- Of two nodes the first one gets every key from the second one by requests. It has a get under
way, and the second one loads a value for it and is about to send it at the instant 3. -/
def request (value : Value) : List Action :=
  [.join (.alone "a" 1 fun _ ↦ 0) .external "/" 1000,
    .join (.alone "b" 1 fun _ ↦ 0) .absent "/" 1000, .create 0 "g" .default,
    .create 1 "g" .default, .changePeers 0 (.set ["b"]), .get 0 0 "k" true false none,
    .step 0, .step 0, .step 0, .serve 1 "GET" "/g/k", .step 1, .step 1, .step 1,
    .answerLoad 1 (.ok value), .advance 3, .step 1]

/-- Once its value has come in the get ends, and another one begins at the instant 4. -/
def repeated : List Action :=
  [.step 0, .step 0, .advance 1, .get 0 0 "k" true false none]

/-- The response with the brief value is about to be given. -/
def sending : Cluster :=
  (empty.actAll? (request brief)).get (by decide +kernel)

/-- It has been given. -/
def sent : Cluster :=
  (sending.act? (.step 1)).get (by decide +kernel)

/-- The first node has read it. -/
def received : Cluster :=
  (sent.act? (.answerFetch 0 (.ok (brief.retold 3)))).get (by decide +kernel)

/-- The other get has begun. -/
def rereading : Cluster :=
  (received.actAll? repeated).get (by decide +kernel)

/-- It has the value of the copy that was stored. -/
def reread : Cluster :=
  (rereading.act? (.step 2)).get (by decide +kernel)

/-- The value that was sent at the instant 3 is what the first node reads. -/
theorem relays_received {sending sent received : Cluster} {value : Value} {early : List Moment}
    (hserves : (sending.tasks[1]?).map (fun task ↦ (task.purpose, task.answer)) =
      some (.serve "g" "k", none))
    (hnow : sending.now = 3) (hsent : sent.now = 3)
    (hserved : sent.answer? 1 = some (.served (.served 3 (.ok value))))
    (hfetching : (sent.tasks[0]?).map (fun task ↦ task.frames) =
      some [⟨0, 0, "k", true, .leading 0 (.fetching "b")⟩])
    (hname : (sent.groups[0]?).map Group.name = some "g") :
    Moment.Relays ⟨sent, .answerFetch 0 (.ok (value.retold 3)), received⟩
      (⟨sending, .step 1, sent⟩ :: early) := by
  rintro number copy frame group haction ⟨task, outer, htask, hframes, hgroup⟩
  cases haction
  rw [show sent.tasks[0]? = some task from htask, Option.map_some, hframes] at hfetching
  cases hfetching
  rw [show sent.groups[0]? = some group from hgroup] at hname
  obtain ⟨server, hserver, hpurpose⟩ := Option.map_eq_some_iff.1 hserves
  refine ⟨.served 3 (.ok value), "b", "http://b/g/k",
    ⟨_, List.mem_cons_self, hnow.trans hsent.symm, 1, server, hserver, ?_⟩, ?_⟩
  · rw [Option.some.inj hname]
    exact ⟨congrArg Prod.fst hpurpose, congrArg Prod.snd hpurpose, hserved⟩
  · rw [show Cluster.now _ = 3 from hsent, Http.readReply_value]

/-- A get comes to the copy, which is one of a value that has not expired by then. -/
theorem no_copy_outlives_its_load_reread :
    ∃ past frame, Course empty reread (⟨rereading, .step 2, reread⟩ :: past) ∧
      Relayed (⟨rereading, .step 2, reread⟩ :: past) ∧ rereading.now = 4 ∧
      Moment.Reads ⟨rereading, .step 2, reread⟩ 2 0 frame brief ∧
      ∃ group origin start hops, rereading.groups[frame.group]? = some group ∧
        Loaded past group.name frame.key origin start ∧ origin.Copies start 4 hops brief ∧
        origin.expired 4 = false := by
  have hrequest : empty.actAll? (request brief) = some sending := (Option.some_get _).symm
  have hsent : sending.act? (.step 1) = some sent := (Option.some_get _).symm
  have hreceived : sent.act? (.answerFetch 0 (.ok (brief.retold 3))) = some received :=
    (Option.some_get _).symm
  have hrepeated : received.actAll? repeated = some rereading := (Option.some_get _).symm
  have hreread : rereading.act? (.step 2) = some reread := (Option.some_get _).symm
  obtain ⟨early, hcourse, hrelayed, -⟩ :=
    Course.here.relaying relayed_nil (by simp [request]) hrequest
  have hrelays : Moment.Relays ⟨sent, .answerFetch 0 (.ok (brief.retold 3)), received⟩
      (⟨sending, .step 1, sent⟩ :: (early ++ [])) :=
    relays_received (by decide +kernel) (by decide +kernel) (by decide +kernel)
      (by decide +kernel) (by decide +kernel) (by decide +kernel)
  obtain ⟨late, hcourse, hrelayed, -⟩ := ((hcourse.next hsent).next hreceived).relaying
    ((hrelayed.cons (Moment.relays_of_silent (by simp))).cons hrelays)
    (by simp [repeated]) hrepeated
  replace hcourse := hcourse.next hreread
  have hstep {past : List Moment} : Moment.Relays ⟨rereading, .step 2, reread⟩ past :=
    Moment.relays_of_silent (by simp)
  replace hrelayed := hrelayed.cons hstep
  have hbefore : (rereading.tasks[2]?).map (fun task ↦ task.frames) =
      some [⟨0, 0, "k", true, .asked⟩] := by decide +kernel
  have hafter : (reread.tasks[2]?).map (fun task ↦ task.frames) =
      some [⟨0, 0, "k", true, .answered (.ok brief)⟩] := by decide +kernel
  have hat {c : Cluster} {frame : Frame}
      (h : (c.tasks[2]?).map (fun task ↦ task.frames) = some [frame]) : c.FrameAt 2 0 frame := by
    obtain ⟨task, htask, hframes⟩ := Option.map_eq_some_iff.1 h
    exact ⟨task, [], htask, hframes ▸ List.suffix_rfl, rfl⟩
  have hreads : Moment.Reads ⟨rereading, .step 2, reread⟩ 2 0 ⟨0, 0, "k", true, .asked⟩ brief :=
    ⟨hat hbefore, .inl ⟨rfl, hat hafter⟩⟩
  have hnow : rereading.now = 4 := by decide +kernel
  obtain ⟨group, origin, start, hops, hgroup, hloaded, -, -, hcopies, hlive⟩ :=
    ((no_copy_outlives_its_load hcourse hrelayed).1 _ _ List.suffix_rfl).1 _ _ _ _ hreads
  exact ⟨_, _, hcourse, hrelayed, hnow, hreads, group, origin, start, hops, hgroup, hloaded,
    hnow ▸ hcopies, hnow ▸ hlive⟩

/-- The response with the distant value is about to be given. -/
def sendingDistant : Cluster :=
  (empty.actAll? (request distant)).get (by decide +kernel)

/-- It has been given. -/
def sentDistant : Cluster :=
  (sendingDistant.act? (.step 1)).get (by decide +kernel)

/-- What the first node reads of the distant value. -/
def shortened : Value :=
  ⟨"v".toUTF8, some 13⟩

/-- The first node has read it. -/
def receivedDistant : Cluster :=
  (sentDistant.act? (.answerFetch 0 (.ok shortened))).get (by decide +kernel)

/-- The one loader that was called gives a value more life than fits a word, and a node serves it.
The node that fetches it takes in, and keeps, a copy that has not expired and expires before the
value does. -/
theorem copy_expires_early : ∃ past,
    Course empty sentDistant past ∧
    sentDistant.act? (.answerFetch 0 (.ok shortened)) = some receivedDistant ∧
    Relayed (⟨sentDistant, .answerFetch 0 (.ok shortened), receivedDistant⟩ :: past) ∧
    sentDistant.fill? (.answerFetch 0 (.ok shortened)) = some ⟨0, "k", .hot, .ok shortened⟩ ∧
    (receivedDistant.groups[0]?).map (fun group ↦ (group.name, group.cache.entries .hot)) =
      some ("g", [⟨"k", shortened⟩]) ∧
    (∃ start, Loaded past "g" "k" distant start) ∧
    (∀ name key origin start, Loaded past name key origin start → origin = distant) ∧
    sentDistant.now = 3 ∧ shortened.expired 3 = false ∧
    shortened.expiresAt ≠ distant.expiresAt := by
  have hrequest : empty.actAll? (request distant) = some sendingDistant :=
    (Option.some_get _).symm
  have hsent : sendingDistant.act? (.step 1) = some sentDistant := (Option.some_get _).symm
  obtain ⟨early, hcourse, hrelayed, hactions⟩ :=
    Course.here.relaying relayed_nil (by simp [request]) hrequest
  have hrelays : Moment.Relays ⟨sentDistant, .answerFetch 0 (.ok (distant.retold 3)),
      receivedDistant⟩ (⟨sendingDistant, .step 1, sentDistant⟩ :: (early ++ [])) :=
    relays_received (by decide +kernel) (by decide +kernel) (by decide +kernel)
      (by decide +kernel) (by decide +kernel) (by decide +kernel)
  rw [show distant.retold 3 = shortened by decide +kernel] at hrelays
  have hfetching : (sentDistant.tasks[0]?).map (fun task ↦ task.frames) =
      some [⟨0, 0, "k", true, .leading 0 (.fetching "b")⟩] := by decide +kernel
  obtain ⟨task, htask, hframes⟩ := Option.map_eq_some_iff.1 hfetching
  have hfill : sentDistant.fill? (.answerFetch 0 (.ok shortened)) =
      some ⟨0, "k", .hot, .ok shortened⟩ := by
    simp [fill?, htask, hframes]
  have hstep : Moment.Relays ⟨sendingDistant, .step 1, sentDistant⟩ (early ++ []) :=
    Moment.relays_of_silent (by simp)
  replace hcourse := hcourse.next hsent
  replace hrelayed := hrelayed.cons hstep
  have honly : ∀ name key origin start,
      Loaded (⟨sendingDistant, .step 1, sentDistant⟩ :: (early ++ [])) name key origin start →
      origin = distant := by
    rintro name key origin start ⟨moment, hmem, -, number, frame, group, haction, -⟩
    rcases List.mem_cons.1 hmem with rfl | hmem
    · cases haction
    · rw [List.append_nil] at hmem
      have hscript := hactions moment hmem
      rw [haction] at hscript
      have hone : number = 1 ∧ origin = distant := by simpa [request] using hscript
      exact hone.2
  obtain ⟨keys, goals, htraced⟩ := hcourse.traced hrelayed
  obtain ⟨group, hgroup, origin, start, hops, hloaded, -⟩ := htraced.fetched hrelays hfill
  have hname : (sentDistant.groups[0]?).map Group.name = some "g" := by decide +kernel
  rw [hgroup, Option.map_some] at hname
  rw [Option.some.inj hname] at hloaded
  obtain rfl := honly _ _ _ _ hloaded
  exact ⟨_, hcourse, (Option.some_get _).symm, hrelayed.cons hrelays, hfill, by decide +kernel,
    ⟨start, hloaded⟩, honly, by decide +kernel, by decide +kernel, by decide +kernel⟩

end Cluster

end ReadThrough
