import ReadThrough.Proofs.Cluster.Calls
import ReadThrough.Proofs.Cluster.Course

/-!
# What comes back after a removal

Removing a key takes it out of the tiers and the remembered absences of its group, and leaves the
flights of the group alone. So a get that begins afterwards finds nothing, but it may join a flight
whose call was made before the removal, and what that call answers is stored after it. The main
statement is `removal_undone_only_in_flight`: this is the only way back. Every value that a later
get is answered with, or that a tier has later, is the answer of a call that started after the
removal, or comes from the one flight for the key that was under way.
-/

namespace ReadThrough

/-- A frame is for a key of a group. -/
def Frame.IsFor (frame : Frame) (index : Nat) (key : String) : Prop :=
  frame.group = index ∧ frame.key = key

namespace Cluster

/-- A call that a frame of a task made has no answer yet. -/
def HasCall (c : Cluster) (number : Nat) (frame : Frame) : Prop :=
  c.HasFrame number frame ∧ frame.Calls

namespace Moment

/-- The call of a frame of a task starts. -/
def Starts (moment : Moment) (number : Nat) (frame : Frame) : Prop :=
  ¬moment.before.HasCall number frame ∧ moment.after.HasCall number frame

/-- The call of a frame of a task is answered with a value. -/
def Answers (moment : Moment) (number : Nat) (frame : Frame) (value : Value) : Prop :=
  moment.before.HasCall number frame ∧
    ∃ tier, moment.before.fill? moment.action = some ⟨frame.group, frame.key, tier, .ok value⟩

end Moment

/-- A call for a key of a group started and was answered with a value then. -/
def Renewed (past : List Moment) (index : Nat) (key : String) (value : Value) : Prop :=
  ∃ number frame answer earlier, frame.IsFor index key ∧ answer :: earlier <:+ past ∧
    answer.Answers number frame value ∧ ∃ start ∈ earlier, start.Starts number frame

/-- A call for a key of a group that a cluster was waiting for was answered with a value since. -/
def Outlives (c : Cluster) (past : List Moment) (index : Nat) (key : String) (value : Value) :
    Prop :=
  ∃ number frame answer, frame.IsFor index key ∧ c.HasCall number frame ∧ answer ∈ past ∧
    answer.Answers number frame value

/-- The leader of a flight for a key of a group is done with a value, and has not landed it. -/
def Unlanded (c : Cluster) (index : Nat) (key : String) (value : Value) : Prop :=
  ∃ number frame flight, frame.IsFor index key ∧ c.HasFrame number frame ∧
    frame.stage = .leading flight (.done (.ok value))

/-- At some moment there was no frame of a task at a height, so if there is one now, the get that it
is for began then or later. -/
def BegunSince (past : List Moment) (number height : Nat) : Prop :=
  ∃ moment ∈ past, ∀ frame, ¬moment.before.FrameAt number height frame

variable {c middle following last removed : Cluster} {past : List Moment} {action : Action}
  {number height index : Nat} {key : String} {value : Value} {frame : Frame}

/-- A call without an answer was there from the beginning, or has started since. -/
theorem Course.started (h : Course c last past) (hcall : last.HasCall number frame) :
    c.HasCall number frame ∨ ∃ start ∈ past, start.Starts number frame := by
  induction h with
  | here => exact .inl hcall
  | @next middle following past action hpast hact ih =>
      by_cases hbefore : middle.HasCall number frame
      · refine (ih hbefore).imp_right ?_
        rintro ⟨start, hmem, hstarts⟩
        exact ⟨start, List.mem_cons_of_mem _ hmem, hstarts⟩
      · exact .inr ⟨_, List.mem_cons_self, hbefore, hcall⟩

/-! ## What is known of a key -/

/-- What may be known of a key of a group: which values are stored for it, and which ones its gets,
those that have begun since, come to. -/
structure Purged (stored owed : Value → Prop) (begun : Nat → Nat → Prop) (index : Nat)
    (key : String) (c : Cluster) : Prop where
  held : ∀ value, c.HasEntry index key value → stored value
  done : ∀ (number : Nat) (frame : Frame) (flight : Nat) (value : Value),
    c.HasFrame number frame → frame.IsFor index key →
    frame.stage = .leading flight (.done (.ok value)) → owed value
  answered : ∀ (number height : Nat) (frame : Frame) (value : Value), begun number height →
    c.FrameAt number height frame → frame.IsFor index key →
    frame.stage = .answered (.ok value) → owed value
  waiting : ∀ (number height : Nat) (frame : Frame) (flight : Nat) (value : Value),
    begun number height → c.FrameAt number height frame → frame.IsFor index key →
    frame.stage = .waiting flight → c.HasLanded index flight (.ok value) → owed value

section

variable {stored owed stored' owed' : Value → Prop} {begun begun' : Nat → Nat → Prop}

/-- A tier has an entry after a move that it had before, or that the move took in. -/
theorem Move.hasEntry (move : Move c action following) (h : following.HasEntry index key value) :
    c.HasEntry index key value ∨ ∃ tier, c.fill? action = some ⟨index, key, tier, .ok value⟩ := by
  obtain ⟨after, tier, hafter, hmem⟩ := h
  cases move.restocks hafter with
  | made name settings heq =>
      rw [heq, (Group.create_bare name settings).2.1] at hmem
      cases hmem
  | kept group hgroup hless => exact .inl ⟨group, tier, hgroup, hless.entries tier _ hmem⟩
  | filled group fill hgroup hfill hindex htakes =>
      rcases htakes.entries tier _ hmem with hbefore | ⟨-, hkey, hok⟩
      · exact .inl ⟨group, tier, hgroup, hbefore⟩
      · obtain ⟨_, _, filled, outcome⟩ := fill
        obtain rfl : index = _ := hindex.symm
        obtain rfl : key = _ := hkey
        obtain rfl : outcome = .ok value := hok
        exact .inr ⟨filled, hfill⟩

/-- What a flight for the key lands with is owed, since it is led for the key its waiters have. -/
theorem Purged.lands {keys : Nat → Nat → String} {goals : Nat → String × String} {flight : Nat}
    (h : Purged stored owed begun index key c) (hsound : Sound anyOutcome keys goals c)
    (move : Move c action following) (hflight : keys index flight = key)
    (hlanded : following.HasLanded index flight (.ok value)) :
    c.HasLanded index flight (.ok value) ∨ owed value := by
  refine (move.lands hlanded).imp_right ?_
  rintro ⟨other, leader, ⟨task, htask, hmem⟩, hindex, hdone⟩
  obtain ⟨_, -, -, -, hfits⟩ := hsound.frames other task htask leader hmem
  rw [hdone, hindex] at hfits
  have hfor : leader.IsFor index key := ⟨hindex, hfits.1.2.symm.trans hflight⟩
  exact h.done other leader flight value ⟨task, htask, hmem⟩ hfor hdone

/-- A move keeps what is known of a key, if the values that it takes in may be stored. -/
theorem Purged.move {keys : Nat → Nat → String} {goals : Nat → String × String}
    (h : Purged stored owed begun index key c) (hsound : Sound anyOutcome keys goals c)
    (move : Move c action following) (hstored : ∀ value, stored value → stored' value)
    (howed : ∀ value, owed value → owed' value) (hmeant : ∀ value, stored' value → owed' value)
    (hfill : ∀ tier value, c.fill? action = some ⟨index, key, tier, .ok value⟩ → stored' value)
    (hbegun : ∀ number height frame, begun' number height → c.FrameAt number height frame →
      begun number height) :
    Purged stored' owed' begun' index key following := by
  have hheld : ∀ value, c.HasEntry index key value → owed' value :=
    fun value hentry ↦ hmeant value (hstored value (h.held value hentry))
  constructor
  · intro value hentry
    rcases move.hasEntry hentry with hbefore | ⟨tier, hfilled⟩
    · exact hstored value (h.held value hbefore)
    · exact hfill tier value hfilled
  · intro number frame flight value hframe hfor hdone
    obtain ⟨height, hat⟩ := hframe.exists_frameAt
    rcases move.passage hat with hold | ⟨hasked, -⟩ | ⟨before, stage, hbefore, rfl, hpassage⟩
    · exact howed value (h.done number frame flight value hold.hasFrame hfor hdone)
    · cases hasked.symm.trans hdone
    · obtain ⟨rfl, rfl⟩ := hfor
      rcases hpassage.done hdone with hentry | ⟨tier, hfilled⟩
      · exact hheld value hentry
      · exact hmeant value (hfill tier value hfilled)
  · intro number height frame value hsince hat hfor hanswered
    rcases move.passage hat with hold | ⟨hasked, -⟩ | ⟨before, stage, hbefore, rfl, hpassage⟩
    · exact howed value (h.answered number height frame value (hbegun _ _ _ hsince hold) hold hfor
        hanswered)
    · cases hasked.symm.trans hanswered
    · obtain ⟨rfl, rfl⟩ := hfor
      rcases hpassage.answered hanswered with hentry | ⟨flight, hwaits, hlanded⟩ | ⟨flight, hdone⟩
      · exact hheld value hentry
      · exact howed value (h.waiting number height before flight value
          (hbegun _ _ _ hsince hbefore) hbefore ⟨rfl, rfl⟩ hwaits hlanded)
      · exact howed value (h.done number before flight value hbefore.hasFrame ⟨rfl, rfl⟩ hdone)
  · intro number height frame flight value hsince hat hfor hwaits hlanded
    rcases move.passage hat with hold | ⟨hasked, -⟩ | ⟨before, stage, hbefore, rfl, hpassage⟩
    · obtain ⟨task, htask, hmem⟩ := hold.hasFrame
      obtain ⟨_, -, -, -, hfits⟩ := hsound.frames number task htask frame hmem
      obtain ⟨rfl, rfl⟩ := hfor
      rw [hwaits] at hfits
      rcases h.lands hsound move hfits.2 hlanded with hbefore | howes
      · exact howed value (h.waiting number height frame flight value (hbegun _ _ _ hsince hold)
          hold ⟨rfl, rfl⟩ hwaits hbefore)
      · exact howed value howes
    · cases hasked.symm.trans hwaits
    · obtain ⟨rfl, rfl⟩ := hfor
      obtain ⟨group, hgroup, hrecord⟩ := hpassage.waiting hwaits
      obtain ⟨haloft, hkey⟩ := (hsound.groups before.group group hgroup).records _ _ hrecord
      rcases h.lands hsound move hkey hlanded with ⟨found, hfound, hold⟩ | howes
      · -- a flight on record has not landed
        rw [hgroup] at hfound
        cases hfound
        rw [haloft] at hold
        cases hold
      · exact howed value howes

/-- A task is a get for a key of a group, and a value that it ends with is owed to it. -/
structure Asks (owed : Value → Prop) (index : Nat) (key : String) (number : Nat) (c : Cluster) :
    Prop where
  lt : number < c.tasks.size
  outermost : ∀ frame, c.FrameAt number 0 frame → frame.IsFor index key
  answer : ∀ value, c.answer? number = some (.got (.ok value)) → owed value

/-- A get for a key stays one, and ends with what its outermost frame comes to. -/
theorem Asks.move (h : Asks owed index key number c)
    (hpurged : Purged stored owed begun index key c) (hbegun : begun number 0)
    (move : Move c action following) (howed : ∀ value, owed value → owed' value) :
    Asks owed' index key number following where
  lt := Nat.lt_of_lt_of_le h.lt move.size_le
  outermost := by
    intro frame hat
    rcases move.passage hat with hold | ⟨-, hinside⟩ | ⟨before, stage, hbefore, rfl, -⟩
    · exact h.outermost frame hold
    · exact absurd (hinside h.lt) (Nat.lt_irrefl 0)
    · exact h.outermost before hbefore
  answer := by
    intro value hanswer
    rcases move.answers hanswer with hold | ⟨frame, hat, hanswered⟩
    · exact howed value (h.answer value hold)
    · exact howed value (hpurged.answered number 0 frame value hbegun hat (h.outermost frame hat)
        hanswered)

end

/-- A get that begins is one for its key. -/
theorem asks_get (owed : Value → Prop) (c : Cluster) (node index : Nat) (key : String)
    (hearsToken cancelled : Bool) (timeout : Option Millis) :
    Asks owed index key c.tasks.size (c.get node index key hearsToken cancelled timeout).2 := by
  have htask : (c.get node index key hearsToken cancelled timeout).2.tasks[c.tasks.size]? = some
      { purpose := .get, cancelled, deadline := timeout.map (c.now + ·)
        frames := [{ node, group := index, key, hearsToken, stage := .asked }]
        answer := none, dropped := false } := Array.getElem?_push_size
  refine ⟨(Array.getElem?_eq_some_iff.1 htask).1, ?_, ?_⟩
  · rintro frame ⟨task, outer, hfound, hsuffix, -⟩
    rw [htask] at hfound
    cases hfound
    cases List.mem_singleton.1 (hsuffix.subset List.mem_cons_self)
    exact ⟨rfl, rfl⟩
  · intro value hanswer
    obtain ⟨task, hfound, hgot⟩ := Option.bind_eq_some_iff.1 hanswer
    rw [htask] at hfound
    cases hfound
    cases hgot

/-! ## After a removal -/

/-- A value may be stored for a key after it was removed from a cluster. -/
def Stored (c : Cluster) (past : List Moment) (index : Nat) (key : String) (value : Value) : Prop :=
  Renewed past index key value ∨ Outlives c past index key value

/-- A get that begins after a key was removed from a cluster may come to a value. -/
def Owed (c : Cluster) (past : List Moment) (index : Nat) (key : String) (value : Value) : Prop :=
  Stored c past index key value ∨ Unlanded c index key value

theorem Stored.cons (h : Stored c past index key value) (moment : Moment) :
    Stored c (moment :: past) index key value := by
  rcases h with ⟨number, frame, answer, earlier, hfor, hsuffix, hanswers, hstarted⟩ |
    ⟨number, frame, answer, hfor, hcall, hmem, hanswers⟩
  · exact .inl ⟨number, frame, answer, earlier, hfor, hsuffix.trans (List.suffix_cons _ _),
      hanswers, hstarted⟩
  · exact .inr ⟨number, frame, answer, hfor, hcall, List.mem_cons_of_mem _ hmem, hanswers⟩

/-- What is taken in may be stored. -/
theorem Course.stored (course : Course c middle past) (hact : middle.act? action = some following)
    {tier : Tier} (hfill : middle.fill? action = some ⟨index, key, tier, .ok value⟩) :
    Stored c (⟨middle, action, following⟩ :: past) index key value := by
  obtain ⟨number, frame, hframe, hcalls, hindex, hkey⟩ := calls_of_fill? hact hfill
  obtain rfl : frame.group = index := hindex
  obtain rfl : frame.key = key := hkey
  have hcall : middle.HasCall number frame := ⟨hframe, hcalls⟩
  rcases course.started hcall with hbefore | hstarted
  · exact .inr ⟨number, frame, _, ⟨rfl, rfl⟩, hbefore, List.mem_cons_self, hcall, tier, hfill⟩
  · exact .inl ⟨number, frame, _, past, ⟨rfl, rfl⟩, List.suffix_rfl, ⟨hcall, tier, hfill⟩, hstarted⟩

/-- Right after a removal nothing is stored for the key, and no get has begun since. -/
theorem purged_remove (hremove : c.act? (.remove index key) = some removed) :
    Purged (Stored c [] index key) (Owed c [] index key) (BegunSince []) index key removed := by
  obtain ⟨group, hgroup, hremoved⟩ := Option.bind_eq_some_iff.1 hremove
  cases hremoved
  constructor
  · rintro value ⟨found, tier, hfound, hmem⟩
    rw [groups_setGroup, Array.getElem?_setIfInBounds, if_pos rfl,
      if_pos (Array.getElem?_eq_some_iff.1 hgroup).1] at hfound
    cases hfound
    exact (Group.ne_of_mem_remove hmem rfl).elim
  · exact fun number frame flight value hframe hfor hdone ↦
      .inr ⟨number, frame, flight, hfor, hframe, hdone⟩
  · rintro number height frame value ⟨moment, hmem, -⟩
    cases hmem
  · rintro number height frame flight value ⟨moment, hmem, -⟩
    cases hmem

/-- The gets of a run that began as tasks of their own. -/
theorem begunSince_of_mem {moment : Moment} (hmem : moment ∈ past) :
    BegunSince past moment.before.tasks.size 0 := by
  refine ⟨moment, hmem, ?_⟩
  rintro frame ⟨task, outer, htask, -⟩
  exact absurd (Array.getElem?_eq_some_iff.1 htask).1 (Nat.lt_irrefl _)

/-- What a run after a removal keeps. -/
theorem Course.purged {keys : Nat → Nat → String} {goals : Nat → String × String}
    (hsound : Sound anyOutcome keys goals removed)
    (hremove : c.act? (.remove index key) = some removed) (course : Course removed last past) :
    (∃ keys goals, Sound anyOutcome keys goals last) ∧
      Purged (Stored c past index key) (Owed c past index key) (BegunSince past) index key last ∧
      ∀ moment ∈ past, ∀ node hearsToken cancelled timeout,
        moment.action = .get node index key hearsToken cancelled timeout →
        Asks (Owed c past index key) index key moment.before.tasks.size last := by
  have hcalls : ∀ {number : Nat} {frame : Frame},
      removed.HasCall number frame → c.HasCall number frame := by
    obtain ⟨group, -, hremoved⟩ := Option.bind_eq_some_iff.1 hremove
    cases hremoved
    exact id
  -- each moment keeps what is known of the key: what it takes in is answered then
  induction course with
  | here => exact ⟨⟨keys, goals, hsound⟩, purged_remove hremove, fun _ hmem ↦ nomatch hmem⟩
  | @next middle following past action course hact ih =>
      obtain ⟨⟨keys', goals', hsound'⟩, hpurged, hasks⟩ := ih
      have move := act?_move hact
      have howed : ∀ value, Owed c past index key value →
          Owed c (⟨middle, action, following⟩ :: past) index key value :=
        fun value howes ↦ howes.imp_left (·.cons _)
      refine ⟨?_, ?_, ?_⟩
      · obtain ⟨keys'', goals'', hsound'', -⟩ :=
          hsound'.move lenient_anyOutcome (allows_anyOutcome _ _) move
        exact ⟨keys'', goals'', hsound''⟩
      · refine hpurged.move hsound' move (fun value hstored ↦ hstored.cons _) howed
          (fun value hstored ↦ .inl hstored) ?_ ?_
        · intro tier value hfill
          refine (course.stored hact hfill).imp_right ?_
          rintro ⟨number, frame, answer, hfor, hcall, hmem, hanswers⟩
          exact ⟨number, frame, answer, hfor, hcalls hcall, hmem, hanswers⟩
        · rintro number height frame ⟨moment, hmem, hnone⟩ hat
          rcases List.mem_cons.1 hmem with rfl | hmem
          · exact absurd hat (hnone frame)
          · exact ⟨moment, hmem, hnone⟩
      · intro moment hmem node hearsToken cancelled timeout haction
        rcases List.mem_cons.1 hmem with rfl | hmem
        · cases haction
          obtain ⟨group, -, hbegun⟩ := Option.bind_eq_some_iff.1 hact
          cases hbegun
          exact asks_get _ middle node index key hearsToken cancelled timeout
        · exact (hasks moment hmem node hearsToken cancelled timeout haction).move hpurged
            (begunSince_of_mem hmem) move howed

/-- Take a cluster that a run leads to, remove a key of a group there, and let anything happen
afterwards. What the tiers have for the key then is the answer of a call that started after the
removal, or the answer, given since, of a call that was waited for when the key was removed. So is
every value that a get for the key is answered with that began after the removal, as a task of its
own or on the way of another get, except that it may also be the value that a leader was done with
and had not landed yet. One frame at most led for the key when it was removed, so at most one call
was waited for or one value was not landed. -/
theorem removal_undone_only_in_flight {allowed : Cluster → Action → Prop}
    (run : Runs allowed empty c) (hremove : c.act? (.remove index key) = some removed)
    (course : Course removed last past) :
    (∀ value, last.HasEntry index key value →
      Renewed past index key value ∨ Outlives c past index key value) ∧
    (∀ moment ∈ past, ∀ node hearsToken cancelled timeout value,
      moment.action = .get node index key hearsToken cancelled timeout →
      last.answer? moment.before.tasks.size = some (.got (.ok value)) →
      Renewed past index key value ∨ Outlives c past index key value ∨
        Unlanded c index key value) ∧
    (∀ (number height : Nat) (frame : Frame) (value : Value), BegunSince past number height →
      last.FrameAt number height frame → frame.IsFor index key →
      frame.stage = .answered (.ok value) →
      Renewed past index key value ∨ Outlives c past index key value ∨
        Unlanded c index key value) ∧
    ∀ (number other : Nat) (frame leader : Frame), c.HasFrame number frame →
      c.HasFrame other leader → frame.lead? = some (index, key) →
      leader.lead? = some (index, key) → number = other ∧ frame = leader := by
  obtain ⟨keys, goals, hsound⟩ := run.keyed
  obtain ⟨keys', goals', hsound', -⟩ :=
    hsound.move lenient_anyOutcome (allows_anyOutcome _ _) (act?_move hremove)
  obtain ⟨-, hpurged, hasks⟩ := course.purged hsound' hremove
  refine ⟨hpurged.held, ?_, ?_, ?_⟩
  · intro moment hmem node hearsToken cancelled timeout value haction hanswer
    exact or_assoc.1 ((hasks moment hmem node hearsToken cancelled timeout haction).answer value
      hanswer)
  · intro number height frame value hsince hat hfor hanswered
    exact or_assoc.1 (hpurged.answered number height frame value hsince hat hfor hanswered)
  · rintro number other frame leader ⟨task, htask, hmem⟩ ⟨found, hfound, hmem'⟩ hleads hleads'
    obtain ⟨depth, hdepth⟩ := List.getElem?_of_mem hmem
    obtain ⟨below, hbelow⟩ := List.getElem?_of_mem hmem'
    obtain ⟨rfl, rfl⟩ := run.orderly.led.unique htask hdepth hleads hfound hbelow hleads'
    rw [htask] at hfound
    cases hfound
    exact ⟨rfl, Option.some.inj (hdepth.symm.trans hbelow)⟩

theorem runs_loading : Runs (fun _ _ ↦ True) empty loading :=
  Runs.here.actAll (by simp) (Option.some_get _).symm

theorem runs_loaded : Runs (fun _ _ ↦ True) empty loaded :=
  runs_loading.next trivial (Option.some_get _).symm

/-- The first get has ended with the value of its loader, which is stored. -/
def settled : Cluster :=
  (loaded.actAll? [.step 0, .step 0]).get (by decide +kernel)

/-- The key is removed then. -/
def emptied : Cluster :=
  (settled.act? (.remove 0 "k")).get (by decide +kernel)

/-- Another get has called the loader since, which answered another value, and has ended. -/
def reloaded : Cluster :=
  ((emptied.get 0 0 "k" true false none).2.actAll?
    [.step 1, .step 1, .step 1, .answerLoad 1 (.ok (.lasting "w".toUTF8)), .step 1, .step 1]).get
      (by decide +kernel)

/-- Where nothing is under way when the key is removed, a later get ends with a value whose call
started after the removal, and that value is stored. -/
theorem removal_undone_only_in_flight_reloaded :
    ∃ past, Course emptied reloaded past ∧
      (∃ moment ∈ past, moment.action = .get 0 0 "k" true false none ∧
        reloaded.answer? moment.before.tasks.size = some (.got (.ok (.lasting "w".toUTF8)))) ∧
      reloaded.HasEntry 0 "k" (.lasting "w".toUTF8) ∧
      Renewed past 0 "k" (.lasting "w".toUTF8) := by
  have hrun : Runs (fun _ _ ↦ True) empty settled :=
    runs_loaded.actAll (by simp) (Option.some_get _).symm
  have hremove : settled.act? (.remove 0 "k") = some emptied := (Option.some_get _).symm
  have hget : emptied.act? (.get 0 0 "k" true false none) =
      some (emptied.get 0 0 "k" true false none).2 := rfl
  have hlast : (emptied.get 0 0 "k" true false none).2.actAll?
      [.step 1, .step 1, .step 1, .answerLoad 1 (.ok (.lasting "w".toUTF8)), .step 1, .step 1] =
        some reloaded := (Option.some_get _).symm
  obtain ⟨later, hcourse, -⟩ := (Course.here.next hget).actAll hlast
  have hentry : reloaded.HasEntry 0 "k" (.lasting "w".toUTF8) := by decide +kernel
  refine ⟨_, hcourse, ⟨_, List.mem_append_right _ List.mem_cons_self, rfl, by decide +kernel⟩,
    hentry, ?_⟩
  rcases (removal_undone_only_in_flight hrun hremove hcourse).1 _ hentry with hrenewed |
    ⟨number, frame, answer, -, ⟨⟨task, htask, hmem⟩, -⟩, -⟩
  · exact hrenewed
  · -- the only task had ended when the key was removed
    have hidle : settled.tasks.toList.flatMap Task.frames = [] := rfl
    have hlisted := Array.mem_toList_iff.2 (Array.mem_of_getElem? htask)
    exact absurd (List.mem_flatMap.2 ⟨task, hlisted, hmem⟩) (hidle ▸ List.not_mem_nil)

/-- The calls that were recorded. -/
def calls (c : Cluster) : List (String × String × String) :=
  c.events.toList.filterMap Event.call?

/-- The key is removed while its loader is called. Another get begins, waits for the flight and ends
with what the loader answers. -/
def overtaken : Cluster :=
  (loading.actAll?
    [.remove 0 "k", .get 0 0 "k" true false none, .step 1, .step 1,
      .answerLoad 0 (.ok (.lasting "v".toUTF8)), .step 0, .step 1, .step 1]).get (by decide +kernel)

/-- The key is removed when the loader has answered and the flight has not landed. Another get
begins, waits for the flight and ends with what it lands with. -/
def outrun : Cluster :=
  (loaded.actAll?
    [.remove 0 "k", .get 0 0 "k" true false none, .step 1, .step 1, .step 0, .step 1, .step 1]).get
      (by decide +kernel)

/-- A get that begins after a removal ends with the answer of a call that was made before, the only
one of the run, whether the answer came after the removal or before it. In the first case it is
stored after the removal, too. -/
theorem removed_value_returns :
    (Runs (fun _ _ ↦ True) empty loading ∧ loading.tasks.size = 1 ∧
      loading.actAll? [.remove 0 "k", .get 0 0 "k" true false none, .step 1, .step 1,
        .answerLoad 0 (.ok (.lasting "v".toUTF8)), .step 0, .step 1, .step 1] = some overtaken ∧
      overtaken.answer? 1 = some (.got (.ok (.lasting "v".toUTF8))) ∧
      overtaken.HasEntry 0 "k" (.lasting "v".toUTF8) ∧
      loading.calls = [("a", "g", "k")] ∧ overtaken.calls = [("a", "g", "k")]) ∧
    Runs (fun _ _ ↦ True) empty loaded ∧ loaded.tasks.size = 1 ∧
      loaded.actAll? [.remove 0 "k", .get 0 0 "k" true false none, .step 1, .step 1, .step 0,
        .step 1, .step 1] = some outrun ∧
      outrun.answer? 1 = some (.got (.ok (.lasting "v".toUTF8))) ∧
      loaded.calls = [("a", "g", "k")] ∧ outrun.calls = [("a", "g", "k")] := by
  refine ⟨⟨runs_loading, ?_, (Option.some_get _).symm, ?_, ?_, ?_, ?_⟩, runs_loaded, ?_,
    (Option.some_get _).symm, ?_, ?_, ?_⟩
  all_goals decide +kernel

end Cluster

end ReadThrough
