import ReadThrough.Cluster.Action
import ReadThrough.Proofs.Http.Paths
import ReadThrough.Proofs.Http.Transfer

/-!
# A fetch over HTTP and a fetch in process

A get that a peer serves comes to an outcome, which a fetch in process hands on as it is and a fetch
over HTTP turns into a response and reads back. What is read is again a value with that lifetime
(`readReply_value`), the absence of the key that was asked for, or a failure of the peer
(`readReply_fault`), so the requester goes on as it would in process, but for a get that the peer
gave up: over HTTP that is a failure of the peer.
-/

namespace ReadThrough

/-- What a group makes of the answer of a peer is to load the key here. -/
def Group.FallsBack (group : Group) (key : String) (now : Millis) (answer : Outcome) : Prop :=
  ∃ fault, (group.takeFetched key now answer).1 = .fallBack fault

namespace Http

/-! ## What a server answers -/

/-- A request that comes to an outcome is answered with the response to that outcome. -/
theorem answer?_finish {c : Cluster} {number : Nat} {task : Task} {group key : String}
    (htask : c.tasks[number]? = some task) (hpurpose : task.purpose = .serve group key)
    (outcome : Outcome) :
    (c.finish number outcome).answer? number = some (.served (.served c.now outcome)) := by
  have hmodified : ∀ answer : Answer,
      (c.modifyTask number fun t ↦ { t with answer := some answer, frames := [] }).tasks[number]? =
        some { task with answer := some answer, frames := [] } := by
    simp [Cluster.modifyTask, Array.getElem?_modify, htask]
  simp only [Cluster.finish, htask, hpurpose, Cluster.answer?]
  split
  · split <;> simp [Cluster.record, hmodified]
  · simp [hmodified]

/-- A request for a key of a group that the node does not have is answered with that. -/
theorem answer?_serve {c : Cluster} {node : Nat} {n : Node} {method path group key : String}
    (hnode : c.nodes[node]? = some n) (hroute : route n.basePath method path = .entry group key)
    (hnone : c.group? node group = none) :
    (c.serve node method path).2.answer? (c.serve node method path).1 =
      some (.served (.served c.now (.error (.groupNotFound group)))) := by
  rw [(serve_entry hnode hroute).1 hnone]
  simp [Cluster.respond, Cluster.answer?, Response.served]

/-! ## What a client reads -/

/-- What is read of the response to a fault: the absence of the key that was asked for, or else a
failure of the peer that tells the status and the text of the fault. -/
theorem readReply_fault (now : Millis) (peer url key : String) (fault : Fault) :
    readReply now peer url key (.whole (.served now (.error fault))) =
      if fault.isNotFound then .error (.notFound key)
      else .error (.transportFailure peer ("HTTP " ++ statusLine (statusOf fault) ++ ": " ++
        Text.trim (Text.lossy fault.message.toUTF8))) := by
  have htype : isReadable ("content-type", textType) = true := by decide +kernel
  have hredirect : Response.isRedirect (.fault fault) = false := by
    cases fault <;> simp [Response.isRedirect, Response.fault, Response.message, Response.typed,
      statusOf]
  have hfinal : Response.isFinal (.fault fault) = true := by
    cases fault <;> simp [Response.isFinal, Response.fault, Response.message, Response.typed,
      statusOf, htype]
  simp only [readReply, Response.served, hfinal, hredirect, Bool.not_true, Bool.false_eq_true,
    if_false]
  cases fault <;> rfl

theorem readReply_absent (now : Millis) (peer url key : String) {fault : Fault}
    (h : fault.isNotFound = true) :
    readReply now peer url key (.whole (.served now (.error fault))) = .error (.notFound key) :=
  (readReply_fault now peer url key fault).trans (if_pos h)

theorem readReply_failed (now : Millis) (peer url key : String) {fault : Fault}
    (h : fault.isNotFound = false) :
    ∃ reason, readReply now peer url key (.whole (.served now (.error fault))) =
      .error (.transportFailure peer reason) :=
  ⟨_, (readReply_fault now peer url key fault).trans (if_neg (Bool.not_eq_true _ ▸ h))⟩

/-- The copy of a value counts as long as the value does, if its lifetime fits a word. -/
theorem expired_copy {value : Value} {now later : Nat}
    (hlife : ∀ left, value.remaining now = some left → left < UInt64.size) (hlater : now ≤ later) :
    (value.retold now).expired later = value.expired later := by
  cases hinstant : value.expiresAt with
  | none => simp [Value.expired, Value.expiresAt_retold, hinstant]
  | some instant =>
      have hword : instant - now < UInt64.size := hlife _ (by simp [Value.remaining, hinstant])
      rw [Bool.eq_iff_iff, Value.expired_iff (Value.expiresAt_retold_some hinstant now),
        Value.expired_iff hinstant, Value.rebased, Nat.mod_eq_of_lt hword]
      omega

/-! ## What a requester makes of it -/

/-- A requester falls back where its settings say so, and what the peer answers is neither a value
nor an absence nor that the get was given up. -/
theorem fallsBack_iff {group : Group} {key : String} {now : Millis} {answer : Outcome} :
    group.FallsBack key now answer ↔ group.settings.fallbackToLocal = true ∧
      ∃ fault, answer = .error fault ∧ fault.isNotFound = false ∧ fault ≠ .cancelled := by
  unfold Group.FallsBack Group.takeFetched
  split
  · simp
  · simp [Fault.isNotFound]
  · simp
  · next fault hnotFound hcancelled =>
    have hfault : fault.isNotFound = false := by
      cases fault with
      | notFound key => exact absurd rfl (hnotFound key)
      | _ => rfl
    have hne : fault ≠ .cancelled := fun h ↦ hcancelled h
    simp only [Except.error.injEq, exists_eq_left']
    by_cases hfallback : group.settings.fallbackToLocal = true
    · simp [Group.count, hfallback, hfault, hne]
    · simp [Group.count, hfallback]

/-- A fetch over HTTP agrees with a fetch in process. A request that comes to an outcome, or that
names a group the node does not have, is answered with the response to that outcome. Read at the
same instant it brings the same bytes, which count as long as the value that was served and for ever
if that does; the absence of the key that was asked for; and for every other fault, a group that the
node does not have among them, a failure of that peer. So the requester falls back on the very same
outcomes as in process, and also where the peer gave the get up. -/
theorem hop_agrees {now : Millis} {outcome : Outcome}
    (hlife : ∀ value left, outcome = .ok value → value.remaining now = some left →
      left < UInt64.size) (peer url key : String) :
    let read := readReply now peer url key (.whole (.served now outcome))
    (∀ c : Cluster, c.now = now →
      (∀ (node : Nat) (n : Node) (method path group name : String), c.nodes[node]? = some n →
        route n.basePath method path = .entry group name → c.group? node group = none →
        outcome = .error (.groupNotFound group) →
        (c.serve node method path).2.answer? (c.serve node method path).1 =
          some (.served (.served now outcome))) ∧
      ∀ (number : Nat) (task : Task) (group name : String), c.tasks[number]? = some task →
        task.purpose = .serve group name →
        (c.finish number outcome).answer? number = some (.served (.served now outcome))) ∧
    (∀ value, outcome = .ok value → ∃ copy, read = .ok copy ∧ copy.data = value.data ∧
      (copy.expiresAt = none ↔ value.expiresAt = none) ∧
      ∀ later, now ≤ later → copy.expired later = value.expired later) ∧
    (∀ name, outcome = .error (.notFound name) → read = .error (.notFound key)) ∧
    (∀ fault, outcome = .error fault → fault.isNotFound = false →
      ∃ reason, read = .error (.transportFailure peer reason)) ∧
    ∀ group : Group, group.FallsBack key now read ↔ group.FallsBack key now outcome ∨
      group.settings.fallbackToLocal = true ∧ outcome = .error .cancelled := by
  intro read
  refine ⟨?_, ?_, ?_, ?_, fun group ↦ ?_⟩
  · rintro c rfl
    refine ⟨?_, fun number task group name htask hpurpose ↦ answer?_finish htask hpurpose outcome⟩
    rintro node n method path group name hnode hroute hnone rfl
    exact answer?_serve hnode hroute hnone
  · rintro value rfl
    refine ⟨_, readReply_value now peer url key value, rfl, ?_, fun later hlater ↦
      expired_copy (fun left ↦ hlife value left rfl) hlater⟩
    simp [Value.expiresAt_retold]
  · rintro name rfl
    exact readReply_absent now peer url key rfl
  · rintro fault rfl hfault
    exact readReply_failed now peer url key hfault
  · rw [fallsBack_iff, fallsBack_iff]
    cases outcome with
    | ok value => simp [read, readReply_value]
    | error fault =>
        cases hfault : fault.isNotFound with
        | true =>
            have hread : read = .error (.notFound key) := readReply_absent now peer url key hfault
            have hne : fault ≠ .cancelled := by
              rintro rfl
              cases hfault
            simp [hread, hfault, hne, show (Fault.notFound key).isNotFound = true from rfl]
        | false =>
            obtain ⟨reason, hread⟩ : ∃ reason, read = .error (.transportFailure peer reason) :=
              readReply_failed now peer url key hfault
            by_cases hcancelled : fault = .cancelled
            · simp [hread, hcancelled, show (Fault.transportFailure peer reason).isNotFound = false
                from rfl]
            · simp [hread, hfault, hcancelled,
                show (Fault.transportFailure peer reason).isNotFound = false from rfl]

/-- A value that is served when it has expired is read as one that has. -/
theorem hop_agrees_expired :
    let value : Value := ⟨"v".toUTF8, some 5⟩
    (∀ left, value.remaining 9 = some left → left < UInt64.size) ∧
      ∃ copy, readReply 9 "http://peer" "http://peer/g/k" "k" (.whole (.served 9 (.ok value))) =
        .ok copy ∧ copy.data = "v".toUTF8 ∧ copy.expired 9 = true := by
  intro value
  have hlife : ∀ left, value.remaining 9 = some left → left < UInt64.size := by
    rintro left ⟨⟩
    decide
  have hserved : ∀ other left, (.ok value : Outcome) = .ok other → other.remaining 9 = some left →
      left < UInt64.size := by
    rintro other left ⟨⟩ hleft
    exact hlife left hleft
  refine ⟨hlife, ?_⟩
  have hagrees := hop_agrees hserved "http://peer" "http://peer/g/k" "k"
  obtain ⟨copy, hread, hdata, -, hexpired⟩ := hagrees.2.1 value rfl
  exact ⟨copy, hread, hdata, (hexpired 9 (Nat.le_refl 9)).trans (by decide)⟩

end Http

end ReadThrough
