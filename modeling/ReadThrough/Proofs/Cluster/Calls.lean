import ReadThrough.Proofs.Cluster.Contents

/-!
# Calls of loaders and peers

The main statement is `one_call_per_key`: for each key of each group at most one call has no answer
yet, no call is made or waited for while a tier holds something live for its key, and so whatever
is live came from the last answer with a value, in the main tier if a loader gave it and in the hot
tier if a peer did. The answers of a run are listed by `Ledger`.
-/

namespace ReadThrough.Cluster

/-- The answers that a run took in on its way to a cluster, the latest one first. -/
inductive Ledger : Cluster → List Fill → Prop where
  | start : Ledger empty []
  | next {c following : Cluster} {fills : List Fill} {action : Action} :
      Ledger c fills → c.act? action = some following →
      Ledger following ((c.fill? action).toList ++ fills)

/-- The last answer with a value for a key of a group. -/
def lastFill? (fills : List Fill) (index : Nat) (key : String) : Option Fill :=
  fills.find? fun fill ↦ fill.group = index && fill.key = key && fill.outcome.isOk

variable {c following : Cluster} {action : Action} {fills : List Fill}

/-- Whatever is live came from the last answer with a value. -/
def Latest (c : Cluster) (fills : List Fill) : Prop :=
  ∀ (index : Nat) (group : Group) (tier : Tier) (key : String) (value : Value),
    c.groups[index]? = some group → group.cache.Live tier key value c.now →
    lastFill? fills index key = some ⟨index, key, tier, .ok value⟩

/-- Every action keeps what is live from the last answer with a value. -/
theorem Latest.act (h : Latest c fills) (horderly : Orderly c)
    (hact : c.act? action = some following) :
    Latest following ((c.fill? action).toList ++ fills) := by
  intro index after tier key value hafter hlive
  obtain ⟨hmem, hunexpired⟩ := hlive
  have hnow := (act?_notes hact).1
  -- what was there before is live since, so no answer for its key comes in now
  have hold : ∀ {group : Group}, c.groups[index]? = some group →
      ⟨key, value⟩ ∈ group.cache.entries tier →
      lastFill? ((c.fill? action).toList ++ fills) index key =
        some ⟨index, key, tier, .ok value⟩ := by
    intro group hgroup hmem
    have hlive : group.cache.Live tier key value c.now :=
      ⟨hmem, Value.expired_eq_false_of_le hnow hunexpired⟩
    have hlast := h index group tier key value hgroup hlive
    cases hfill : c.fill? action with
    | none => exact hlast
    | some fill =>
        have hother : ¬(fill.group = index ∧ fill.key = key) := by
          rintro ⟨rfl, rfl⟩
          exact horderly.not_live_of_fill? hact hfill hgroup tier value hlive
        rw [Option.toList_some, List.singleton_append, lastFill?, List.find?_cons_of_neg]
        · exact hlast
        · simp only [Bool.and_eq_true, decide_eq_true_eq]
          exact fun hsame ↦ hother hsame.1
  cases (act?_move hact).restocks hafter with
  | made name settings heq =>
      rw [heq, (Group.create_bare name settings).2.1] at hmem
      cases hmem
  | kept group hgroup hless => exact hold hgroup (hless.entries tier _ hmem)
  | filled group fill hgroup hfill hindex htakes =>
      rcases htakes.entries tier _ hmem with hbefore | ⟨rfl, hkey, hok⟩
      · exact hold hgroup hbefore
      · obtain ⟨_, _, _, outcome⟩ := fill
        obtain rfl : index = _ := hindex.symm
        obtain rfl : key = _ := hkey
        obtain rfl : outcome = .ok value := hok
        rw [hfill]
        simp [lastFill?, Except.isOk, Except.toBool]

/-- What holds of the cluster that a run leads to, and of the answers that it took in. -/
theorem Ledger.latest (h : Ledger c fills) : Orderly c ∧ Latest c fills := by
  induction h with
  | start => exact ⟨orderly_empty, by simp [Latest, empty]⟩
  | next _ hact ih => exact ⟨ih.1.act hact, ih.2.act ih.1 hact⟩

/-- Take the cluster that a run leads to, and the answers that it took in. For each key of each
group at most one call has no answer yet, and as long as it has none, no tier holds anything live
for the key. Nor does when a call is recorded. What is live is the value of the last answer that
had one, in the main tier if it came from a loader and in the hot tier if it came from a peer. -/
theorem one_call_per_key (h : Ledger c fills) :
    (∀ (number other depth below : Nat) (task found : Task) (frame caller : Frame),
      c.tasks[number]? = some task → task.frames[depth]? = some frame →
      c.tasks[other]? = some found → found.frames[below]? = some caller →
      frame.Calls → caller.Calls → frame.group = caller.group → frame.key = caller.key →
      number = other ∧ depth = below) ∧
    (∀ (number : Nat) (frame : Frame) (group : Group), c.HasFrame number frame → frame.Calls →
      c.groups[frame.group]? = some group →
      ∀ tier value, ¬group.cache.Live tier frame.key value c.now) ∧
    (∀ (action : Action) (following : Cluster), c.act? action = some following →
      ∃ fresh, following.events.toList = c.events.toList ++ fresh ∧
        ∀ event ∈ fresh, ∀ call, event.call? = some call →
          ∃ number frame group, action.mover? = some number ∧ c.MayCall number frame group ∧
            call = (c.idOf frame.node, group.name, frame.key) ∧
            ∀ tier value, ¬group.cache.Live tier frame.key value c.now) ∧
    ∀ (index : Nat) (group : Group) (tier : Tier) (key : String) (value : Value),
      c.groups[index]? = some group → group.cache.Live tier key value c.now →
      lastFill? fills index key = some ⟨index, key, tier, .ok value⟩ := by
  obtain ⟨horderly, hlatest⟩ := h.latest
  refine ⟨?_, horderly.quiet, ?_, hlatest⟩
  · intro number other depth below task found frame caller htask hframe hfound hcaller hcalls
      hcalls' hgroup hkey
    have hleads : ∀ {frame : Frame}, frame.Calls →
        frame.lead? = some (frame.group, frame.key) := by
      intro frame hcalls
      obtain ⟨flight, errand, hstage, -⟩ := hcalls.atWork
      exact Frame.lead?_leading hstage
    refine horderly.led.unique htask hframe (hleads hcalls) hfound hcaller ?_
    rw [hleads hcalls', hgroup, hkey]
  · intro action following hact
    obtain ⟨-, fresh, hfresh, hdue⟩ := act?_notes hact
    refine ⟨fresh, hfresh, fun event hevent call hcall ↦ ?_⟩
    obtain ⟨number, hmover, frame, group, hmay, heq⟩ := hdue event hevent call hcall
    exact ⟨number, frame, group, hmover, hmay, heq, horderly.not_live hmay⟩

/-- A run goes on with one action after the other. -/
theorem Ledger.actAll (h : Ledger c fills) {actions : List Action} {last : Cluster}
    (hact : c.actAll? actions = some last) : ∃ fills, Ledger last fills := by
  induction actions generalizing c fills with
  | nil =>
      cases hact
      exact ⟨fills, h⟩
  | cons action rest ih =>
      obtain ⟨middle, hmiddle, hrest⟩ := Option.bind_eq_some_iff.1 hact
      exact ih (h.next hmiddle) hrest

/-- A node with a get whose loader has been called. -/
def loading : Cluster :=
  (empty.actAll?
    [.join (.alone "a" 1 fun _ ↦ 0) .absent "/" 1000, .create 0 "g" .default,
      .get 0 0 "k" true false none, .step 0, .step 0, .step 0]).get (by decide +kernel)

/-- The loader has answered. -/
def loaded : Cluster :=
  (loading.act? (.answerLoad 0 (.ok (.lasting "v".toUTF8)))).get (by decide +kernel)

/-- While the loader is called nothing is live for the key, and once it has answered its value is
live in the main tier and is that of the last answer. -/
theorem one_call_per_key_loaded :
    (∃ group, loading.groups[0]? = some group ∧
      ∀ tier value, ¬group.cache.Live tier "k" value loading.now) ∧
    ∃ fills group, Ledger loaded fills ∧ loaded.groups[0]? = some group ∧
      group.cache.Live .main "k" (.lasting "v".toUTF8) loaded.now ∧
      lastFill? fills 0 "k" = some ⟨0, "k", .main, .ok (.lasting "v".toUTF8)⟩ := by
  obtain ⟨fills, hloading⟩ : ∃ fills, Ledger loading fills :=
    Ledger.start.actAll (Option.some_get _).symm
  have hanswer : loading.act? (.answerLoad 0 (.ok (.lasting "v".toUTF8))) = some loaded :=
    (Option.some_get _).symm
  have hloaded := hloading.next hanswer
  refine ⟨⟨_, rfl, ?_⟩, _, _, hloaded, rfl, by decide +kernel, ?_⟩
  · exact (one_call_per_key hloading).2.1 0 ⟨0, 0, "k", true, .leading 0 .loading⟩ _
      ⟨_, rfl, List.mem_singleton_self _⟩ ⟨0, .inl rfl⟩ rfl
  · exact (one_call_per_key hloaded).2.2.2 0 _ .main "k" _ rfl (by decide +kernel)

end ReadThrough.Cluster
