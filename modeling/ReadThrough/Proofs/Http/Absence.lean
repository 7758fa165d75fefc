import ReadThrough.Proofs.Cluster.Removal
import ReadThrough.Proofs.Http.Hop

/-!
# Absences over HTTP

A client knows little more of a response than its status (`readReply_cases`), and reads 404 as the
absence of the key that it asked for. A server answers so where the get that it began for the
request came to an absence (`Course.served`), and for a path that is not below its base path. Every
other request that it cannot take to a group and a key it answers with 400, which is read as a
failure of the peer.
-/

namespace ReadThrough

open Cluster

namespace Http

/-- A response of any other status than those is read as a failure of the peer. -/
theorem readReply_failure {now : Millis} {peer url key : String} {reply : Reply}
    (h : ∀ response, reply.response? = some response →
      response.status ≠ 404 ∧ response.status ≠ 200) :
    ∃ reason, readReply now peer url key reply = .error (.transportFailure peer reason) := by
  rcases readReply_cases now peer url key reply with hfailed |
    ⟨response, hresponse, ⟨hstatus, -⟩ | ⟨hstatus, -⟩⟩
  · exact hfailed
  · exact absurd hstatus (h response hresponse).1
  · exact absurd hstatus (h response hresponse).2

/-- An absence is read only of a response with status 404. -/
theorem exists_response_of_absent {now : Millis} {peer url key absent : String} {reply : Reply}
    (h : readReply now peer url key reply = .error (.notFound absent)) :
    ∃ response, reply.response? = some response ∧ response.status = 404 := by
  rcases readReply_cases now peer url key reply with ⟨reason, hread⟩ |
    ⟨response, hresponse, ⟨hstatus, -⟩ | ⟨-, value, hread⟩⟩
  · cases h.symm.trans hread
  · exact ⟨response, hresponse, hstatus⟩
  · cases h.symm.trans hread

/-- The response to an outcome has status 404 just if that is an absence. -/
theorem status_served {now : Millis} {outcome : Outcome}
    (h : (Response.served now outcome).status = 404) :
    ∃ absent, outcome = .error (.notFound absent) := by
  cases outcome with
  | ok value =>
      simp only [Response.served] at h
      split at h <;> cases h
  | error fault =>
      cases fault with
      | notFound absent => exact ⟨absent, rfl⟩
      | _ => cases h

/-! ## What a server does with a path -/

theorem serve_fst (c : Cluster) (node : Nat) (method path : String) :
    (c.serve node method path).1 = c.tasks.size := by
  unfold Cluster.serve
  repeat' split
  all_goals rfl

/-- What a server does with a path that is none of those of operators: it answers 404 where the path
is not below its base path, 400 where it names no group and key that are there, and begins a get of
the key on the group for all others. -/
inductive Takes (c : Cluster) (node : Nat) (n : Node) (path : String) : Cluster → Prop where
  | outside : stripLeading? n.basePath.toList path.toList = none →
      Takes c node n path (c.respond (.message 404 "not found")).2
  | refused (rest : List Char) (text : String) :
      stripLeading? n.basePath.toList path.toList = some rest →
      (∀ name key index group, route n.basePath "GET" path = .entry name key →
        c.group? node name = some index → c.groups[index]? ≠ some group) →
      Takes c node n path (c.respond (.message 400 text)).2
  | asked (rest : List Char) (name key : String) (index : Nat) (group : Group) :
      stripLeading? n.basePath.toList path.toList = some rest →
      route n.basePath "GET" path = .entry name key → c.group? node name = some index →
      c.groups[index]? = some group →
      Takes c node n path
        ((c.setGroup index group.recordServerRequest).begin node index key (.serve name key) false
          false (some (c.now + n.requestTimeout))).2

/-- What follows the base path names a group and a key, or is refused with 400. -/
theorem routeEntry_cases (rest : List Char) :
    (∃ name key, routeEntry rest = .entry name key) ∨
      ∃ text, routeEntry rest = .refused 400 text := by
  unfold routeEntry
  split
  · exact .inr ⟨_, rfl⟩
  · split
    · exact .inl ⟨_, _, rfl⟩
    · exact .inr ⟨_, rfl⟩

theorem takes_serve {c : Cluster} {node : Nat} {n : Node} {path : String}
    (hnode : c.nodes[node]? = some n)
    (hpath : path ∉ ["/healthz", "/livez", "/readyz", "/metrics", "/stats"]) :
    Takes c node n path (c.serve node "GET" path).2 := by
  simp only [List.mem_cons, List.not_mem_nil, or_false, not_or] at hpath
  obtain ⟨hhealthz, hlivez, hreadyz, hmetrics, hstats⟩ := hpath
  cases hstrip : stripLeading? n.basePath.toList path.toList with
  | none =>
      have hroute : route n.basePath "GET" path = .refused 404 "not found" := by
        simp [route, routePath, hhealthz, hlivez, hreadyz, hmetrics, hstats, hstrip]
      simp only [Cluster.serve, hnode, hroute]
      exact .outside hstrip
  | some rest =>
      have hroute : route n.basePath "GET" path = routeEntry rest := by
        simp [route, routePath, hhealthz, hlivez, hreadyz, hmetrics, hstats, hstrip]
      rcases routeEntry_cases rest with ⟨name, key, hentry⟩ | ⟨text, hrefused⟩
      · rw [hentry] at hroute
        have hgroup : c.group? node name = n.registry.lookup name := by simp [group?, hnode]
        simp only [Cluster.serve, hnode, hroute]
        cases hlookup : n.registry.lookup name with
        | none =>
            refine .refused rest _ hstrip fun other asked index group hother hindex ↦ ?_
            cases hroute.symm.trans hother
            rw [hgroup, hlookup] at hindex
            cases hindex
        | some index =>
            cases hserved : c.groups[index]? with
            | none =>
                simp only [hserved]
                refine .refused rest _ hstrip fun other asked found group hother hfound hthere ↦ ?_
                cases hroute.symm.trans hother
                rw [hgroup, hlookup] at hfound
                cases hfound
                cases hserved.symm.trans hthere
            | some group =>
                simp only [hserved]
                exact .asked rest name key index group hstrip hroute (hgroup.trans hlookup) hserved
      · rw [hrefused] at hroute
        simp only [Cluster.serve, hnode, hroute]
        exact .refused rest text hstrip fun name key index group hentry ↦ by
          cases hroute.symm.trans hentry

end Http

/-! ## What becomes of a request -/

namespace Cluster

/-- The get that a request was taken to came to an outcome, at a moment on the way of a run. -/
def CameTo (past : List Moment) (number index : Nat) (key : String) (outcome : Outcome) : Prop :=
  ∃ moment ∈ past, ∃ frame, moment.before.FrameAt number 0 frame ∧ frame.IsFor index key ∧
    frame.stage = .answered outcome

/-- What holds of a request that was taken to a key of a group: its outermost frame is for that, and
its response is one to what that came to, or to its time being up. -/
structure Serves (past : List Moment) (name key : String) (number index : Nat) (c : Cluster) :
    Prop where
  task : ∃ task, c.tasks[number]? = some task ∧ task.purpose = .serve name key
  outermost : ∀ frame, c.FrameAt number 0 frame → frame.IsFor index key
  answer : ∀ answer, c.answer? number = some answer → ∃ now outcome,
    answer = .served (.served now outcome) ∧
      (outcome = .error .cancelled ∨ CameTo past number index key outcome)

variable {c middle following last : Cluster} {past : List Moment} {action : Action}
  {number index : Nat} {name key : String}

/-- A request that was taken to a key stays so with everything that happens. -/
theorem Serves.act (h : Serves past name key number index middle)
    (hact : middle.act? action = some following) :
    Serves (⟨middle, action, following⟩ :: past) name key number index following := by
  have move := act?_move hact
  obtain ⟨task, htask, hpurpose⟩ := h.task
  refine ⟨?_, ?_, ?_⟩
  · obtain ⟨after, hafter, hcontinues⟩ := move.continues htask
    exact ⟨after, hafter, hcontinues.purpose.trans hpurpose⟩
  · intro frame hat
    rcases move.passage hat with hold | ⟨-, hinside⟩ | ⟨before, stage, hbefore, rfl, -⟩
    · exact h.outermost frame hold
    · exact absurd (hinside (Array.getElem?_eq_some_iff.1 htask).1) (Nat.lt_irrefl 0)
    · exact h.outermost before hbefore
  · intro answer hanswer
    rcases move.answered hanswer with hold | ⟨found, outcome, hfound, rfl, hcomes⟩ |
      ⟨response, rfl, -⟩
    · obtain ⟨now, outcome, rfl, hcomes⟩ := h.answer answer hold
      refine ⟨now, outcome, rfl, hcomes.imp_right ?_⟩
      rintro ⟨moment, hmem, hcame⟩
      exact ⟨moment, List.mem_cons_of_mem _ hmem, hcame⟩
    · rw [htask] at hfound
      cases hfound
      rw [hpurpose]
      refine ⟨middle.now, outcome, rfl, hcomes.imp_right ?_⟩
      rintro ⟨frame, hat, hstage⟩
      exact ⟨_, List.mem_cons_self, frame, hat, h.outermost frame hat, hstage⟩
    · exact absurd (Array.getElem?_eq_some_iff.1 htask).1 (Nat.lt_irrefl _)

/-- A request that was taken to a key is answered with the response to what the get came to, or with
that to its time being up. -/
theorem Course.serves {node : Nat} {deadline : Option Millis}
    (course : Course (c.begin node index key (.serve name key) false false deadline).2 last past) :
    Serves past name key c.tasks.size index last := by
  induction course with
  | here =>
      have htask : (c.begin node index key (.serve name key) false false deadline).2.tasks[
          c.tasks.size]? = some
            { purpose := .serve name key, cancelled := false, deadline
              frames := [{ node, group := index, key, hearsToken := false, stage := .asked }]
              answer := none, dropped := false } := Array.getElem?_push_size
      refine ⟨⟨_, htask, rfl⟩, ?_, ?_⟩
      · rintro frame ⟨task, outer, hfound, hsuffix, -⟩
        rw [htask] at hfound
        cases hfound
        cases List.mem_singleton.1 (hsuffix.subset List.mem_cons_self)
        exact ⟨rfl, rfl⟩
      · intro answer hanswer
        rw [answer?, htask] at hanswer
        cases hanswer
  | next _ hact ih => exact ih.act hact

/-- A request that was answered at once keeps its response. -/
theorem Course.responded {response other : Http.Response}
    (course : Course (c.respond response).2 last past)
    (h : last.answer? c.tasks.size = some (.served other)) : other = response := by
  have hkept : ∃ task, last.tasks[c.tasks.size]? = some task ∧ task.purpose = .get ∧
      ∀ other, task.answer = some (.served other) → other = response := by
    clear h
    induction course with
    | here =>
        refine ⟨_, Array.getElem?_push_size, rfl, fun other hother ↦ ?_⟩
        cases hother
        rfl
    | next _ hact ih =>
        obtain ⟨task, htask, hpurpose, hanswer⟩ := ih
        obtain ⟨after, hafter, hcontinues⟩ := (act?_move hact).continues htask
        refine ⟨after, hafter, hcontinues.purpose.trans hpurpose, fun other hother ↦ ?_⟩
        rcases hcontinues.answer with hsame | ⟨outcome, hnew⟩
        · exact hanswer other (hsame ▸ hother)
        · rw [hnew, hpurpose] at hother
          cases hother
  obtain ⟨task, htask, -, hanswer⟩ := hkept
  rw [answer?, htask] at h
  exact hanswer other h

end Cluster

namespace Http

variable {c begun last : Cluster} {past : List Moment} {node : Nat} {n : Node} {path : String}

/-- A response with status 404 is for a path that is not below the base path, or for an absence that
the get came to. -/
theorem Takes.absent (h : Takes c node n path begun) (course : Course begun last past)
    {response : Response} (hanswer : last.answer? c.tasks.size = some (.served response))
    (hstatus : response.status = 404) :
    stripLeading? n.basePath.toList path.toList = none ∨
      ∃ name key index absent, route n.basePath "GET" path = .entry name key ∧
        c.group? node name = some index ∧
        CameTo past c.tasks.size index key (.error (.notFound absent)) := by
  cases h with
  | outside hstrip => exact .inl hstrip
  | refused =>
      rw [course.responded hanswer] at hstatus
      cases hstatus
  | asked rest name key index group hstrip hroute hindex =>
      obtain ⟨now, outcome, hserved, hcomes⟩ := course.serves.answer _ hanswer
      obtain rfl : response = .served now outcome := by
        injection hserved
      obtain ⟨absent, rfl⟩ := status_served hstatus
      exact .inr ⟨name, key, index, absent, hroute, hindex, hcomes.resolve_left nofun⟩

/-- A path below the base path that names no group and key that are there is refused with 400. -/
theorem Takes.unroutable (h : Takes c node n path begun) (course : Course begun last past)
    {response : Response} (hanswer : last.answer? c.tasks.size = some (.served response))
    (hinside : stripLeading? n.basePath.toList path.toList ≠ none)
    (hnone : ∀ name key index group, route n.basePath "GET" path = .entry name key →
      c.group? node name = some index → c.groups[index]? ≠ some group) :
    response.status = 400 := by
  cases h with
  | outside hstrip => exact absurd hstrip hinside
  | refused rest text =>
      rw [course.responded hanswer]
      rfl
  | asked rest name key index group hstrip hroute hindex hgroup =>
      exact absurd hgroup (hnone name key index group hroute hindex)

/-- A path that is not below the base path is answered with 404 at once. -/
theorem Takes.unknown (h : Takes c node n path begun)
    (houtside : stripLeading? n.basePath.toList path.toList = none) :
    begun.answer? c.tasks.size = some (.served (.message 404 "not found")) := by
  cases h with
  | outside =>
      have htask : (c.respond (.message 404 "not found")).2.tasks[c.tasks.size]? = some _ :=
        Array.getElem?_push_size
      rw [answer?, htask]
      rfl
  | refused rest text hstrip => cases houtside.symm.trans hstrip
  | asked rest name key index group hstrip => cases houtside.symm.trans hstrip

/-- Take any base paths of a client and of a node, and what comes back of the request for a key of a
group, whenever and however far it does. The node answers 404 where the path is not below its base
path. An absence of the key is read only there, or where the get on the group and for the key that
the path names below the base path has come to an absence. So where the base paths differ in slashes around them alone, it is read only
where the get on the very group for the very key has. A path below the base path that names no group
and key of the node is read as a failure of the peer. On that a requester loads the key itself where
it falls back at all, and it remembers no absence. -/
theorem absences_come_from_groups (clientBase : String) {serverBase : String}
    (hnode : c.nodes[node]? = some n) (hserver : n.basePath = normalizeBasePath serverBase)
    (group key : String) :
    let path := entryPath (normalizeBasePath clientBase) group key
    let request := c.serve node "GET" path
    (stripLeading? n.basePath.toList path.toList = none →
      request.2.answer? request.1 = some (.served (.message 404 "not found"))) ∧
    ∀ (last : Cluster) (past : List Moment), Course request.2 last past →
    ∀ reply : Reply, (∀ response, reply.response? = some response →
      last.answer? request.1 = some (.served response)) →
    ∀ (now : Millis) (peer url : String),
    let read := readReply now peer url key reply
    (∀ absent, read = .error (.notFound absent) →
      stripLeading? n.basePath.toList path.toList = none ∨
        ∃ name asked index absent, route n.basePath "GET" path = .entry name asked ∧
          c.group? node name = some index ∧
          CameTo past request.1 index asked (.error (.notFound absent))) ∧
    (SlashesApart clientBase serverBase → ∀ absent, read = .error (.notFound absent) →
      ∃ index absent, c.group? node group = some index ∧
        CameTo past request.1 index key (.error (.notFound absent))) ∧
    (stripLeading? n.basePath.toList path.toList ≠ none →
      (∀ name asked index g, route n.basePath "GET" path = .entry name asked →
        c.group? node name = some index → c.groups[index]? ≠ some g) →
      ∃ reason, read = .error (.transportFailure peer reason)) ∧
    ∀ (requester : Group) (reason : String),
      (requester.FallsBack key now (.error (.transportFailure peer reason)) ↔
        requester.settings.fallbackToLocal = true) ∧
      (requester.takeFetched key now (.error (.transportFailure peer reason))).2.absences =
        requester.absences := by
  intro path request
  have hpath : path ∉ ["/healthz", "/livez", "/readyz", "/metrics", "/stats"] := by
    simp only [List.mem_cons, List.not_mem_nil, or_false, not_or]
    refine ⟨?_, ?_, ?_, ?_, ?_⟩
    all_goals exact entryPath_ne (slash_mem_normalizeBasePath clientBase) group key (by decide)
  have htakes : Takes c node n path request.2 := takes_serve hnode hpath
  have hnumber : request.1 = c.tasks.size := serve_fst c node "GET" path
  rw [hnumber]
  refine ⟨htakes.unknown, fun last past course reply hreply now peer url ↦ ?_⟩
  intro read
  have habsent : ∀ absent, read = .error (.notFound absent) →
      stripLeading? n.basePath.toList path.toList = none ∨
        ∃ name asked index absent, route n.basePath "GET" path = .entry name asked ∧
          c.group? node name = some index ∧
          CameTo past c.tasks.size index asked (.error (.notFound absent)) := by
    intro absent hread
    obtain ⟨response, hresponse, hstatus⟩ := exists_response_of_absent hread
    exact htakes.absent course (hreply response hresponse) hstatus
  refine ⟨habsent, fun happart absent hread ↦ ?_, fun hinside hnone ↦ ?_,
    fun requester reason ↦ ⟨?_, ?_⟩⟩
  · have hbase : n.basePath = normalizeBasePath clientBase := hserver.trans happart.normalize.symm
    have hroute : route n.basePath "GET" path = .entry group key :=
      hbase ▸ route_entryPath (slash_mem_normalizeBasePath clientBase) group key
    rcases habsent absent hread with houtside | ⟨name, asked, index, absent, hother, hcame⟩
    · rw [hbase, toList_entryPath, stripLeading?_append] at houtside
      cases houtside
    · cases hroute.symm.trans hother
      exact ⟨index, absent, hcame⟩
  · refine readReply_failure fun response hresponse ↦ ?_
    have hstatus := htakes.unroutable course (hreply response hresponse) hinside hnone
    rw [hstatus]
    decide
  · rw [fallsBack_iff]
    simp [Fault.isNotFound]
  · simp only [Group.takeFetched]
    split <;> rfl

/-- A node with one group, below the base path `/a/b/`. -/
def nested : Cluster :=
  (empty.actAll?
    [.join (.alone "http://b" 1 fun _ ↦ 0) .absent "/a/b/" 1000, .create 0 "g" .default]).get
    (by decide +kernel)

/-- The node serves a request for a key that its loader does not find. -/
def servedAbsent : Cluster :=
  ((nested.serve 0 "GET" "/a/b/g/k").2.actAll?
    [.step 0, .step 0, .step 0, .answerLoad 0 (.error .notFound), .step 0, .step 0]).get
    (by decide +kernel)

/-- The loader of the node does not find a key, and a client whose base path differs in slashes
alone reads that the key is absent. -/
theorem absences_come_from_groups_nested :
    servedAbsent.answer? 0 = some (.served (.served 0 (.error (.notFound "k")))) ∧
    readReply 0 "http://b" "" "k" (.whole (.served 0 (.error (.notFound "k")))) =
      .error (.notFound "k") ∧
    ∃ past index absent, Course (nested.serve 0 "GET" "/a/b/g/k").2 servedAbsent past ∧
      nested.group? 0 "g" = some index ∧
      CameTo past 0 index "k" (.error (.notFound absent)) := by
  have hanswer : servedAbsent.answer? 0 = some (.served (.served 0 (.error (.notFound "k")))) := by
    decide +kernel
  have hfault : (Fault.notFound "k").isNotFound = true := rfl
  have hread := readReply_absent 0 "http://b" "" "k" hfault
  have hbase : SlashesApart "a/b" "/a/b/" := ⟨"a/b".toList, 0, 0, 1, 1, by decide, by decide⟩
  have hpath : entryPath (normalizeBasePath "a/b") "g" "k" = "/a/b/g/k" := by decide +kernel
  have hnumber : (nested.serve 0 "GET" "/a/b/g/k").1 = 0 := by decide +kernel
  have hplace : (nested.nodes[0]?).map Node.basePath = some (normalizeBasePath "/a/b/") := by
    decide +kernel
  obtain ⟨node, hnode, hserver⟩ := Option.map_eq_some_iff.1 hplace
  obtain ⟨past, course, -⟩ := Course.here.actAll
    (show (nested.serve 0 "GET" "/a/b/g/k").2.actAll? _ = some servedAbsent from
      (Option.some_get _).symm)
  rw [List.append_nil] at course
  have hcome := absences_come_from_groups "a/b" hnode hserver "g" "k"
  dsimp only at hcome
  rw [hpath, hnumber] at hcome
  obtain ⟨-, hsame, -⟩ := hcome.2 servedAbsent past course
    (.whole (.served 0 (.error (.notFound "k")))) (by rintro response ⟨⟩; exact hanswer) 0
    "http://b" ""
  obtain ⟨index, absent, hindex, hcame⟩ := hsame hbase "k" hread
  exact ⟨hanswer, hread, past, index, absent, course, hindex, hcame⟩

/-- A client asks the node below another base path. The node asks no group and answers 404, the
client reads that the key is absent, and the requester neither loads the key itself, though it may,
nor asks again while it remembers absences. -/
theorem absence_outside_base_path :
    let path := entryPath (normalizeBasePath "/other/") "g" "k"
    let request := nested.serve 0 "GET" path
    let requester := Group.create "g" { GroupSettings.default with negativeTtl := some 1000 }
    let taken := requester.takeFetched "k" 0 (.error (.notFound "k"))
    nested.group? 0 "g" = some 0 ∧
    request.2.answer? request.1 = some (.served (.message 404 "not found")) ∧
    (∀ index absent, ¬CameTo [] request.1 index "k" (.error (.notFound absent))) ∧
    readReply 0 "http://b" "" "k" (.whole (.message 404 "not found")) = .error (.notFound "k") ∧
    requester.settings.fallbackToLocal = true ∧ taken.1 = .done (.error (.notFound "k")) ∧
    (taken.2.consult "k" 999 false).1 = some (.error (.notFound "k")) := by
  refine ⟨by decide +kernel, by decide +kernel, ?_, ?_, rfl, rfl, by decide +kernel⟩
  · rintro index absent ⟨moment, hmem, -⟩
    cases hmem
  · have hfault : (Fault.notFound "k").isNotFound = true := rfl
    exact readReply_absent 0 "http://b" "" "k" hfault

end Http

end ReadThrough
