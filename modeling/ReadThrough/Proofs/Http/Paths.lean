import ReadThrough.Cluster.Step
import ReadThrough.Http.Client
import ReadThrough.Proofs.Text.Utf8

/-!
# Paths of keys

The path on which a client asks for a key is read by a server as that group and that key
(`route_entryPath`): percent coding leaves no slash in either of them and is undone byte by byte,
and the normal forms of two base paths agree if the base paths differ in slashes around them alone.
-/

namespace ReadThrough.Http

/-! ## Percent coding -/

namespace Percent

/-- There are 256 bytes. -/
theorem mem_bytes (b : UInt8) : b ∈ (List.range 256).map UInt8.ofNat :=
  List.mem_map.2 ⟨b.toNat, List.mem_range.2 b.toNat_lt, UInt8.ofNat_toNat⟩

/-- The two digits of an escape are read as the two halves of the byte. -/
theorem hexValue?_hexByte (b : UInt8) :
    hexValue? (hexByte (b >>> 4)) = some (b >>> 4) ∧
      hexValue? (hexByte (b &&& 0x0f)) = some (b &&& 0x0f) ∧
      b >>> 4 <<< 4 ||| (b &&& 0x0f) = b := by
  have h : ((List.range 256).map UInt8.ofNat).all fun b ↦
      hexValue? (hexByte (b >>> 4)) = some (b >>> 4) ∧
        hexValue? (hexByte (b &&& 0x0f)) = some (b &&& 0x0f) ∧
        b >>> 4 <<< 4 ||| (b &&& 0x0f) = b := by
    decide +kernel
  exact of_decide_eq_true (List.all_eq_true.1 h b (mem_bytes b))

/-- An escape is read as the byte that it was written for, and a byte that stands for itself begins
no escape. -/
theorem decodeBytes_encodeByte (b : UInt8) (rest : List UInt8) :
    decodeBytes (encodeByte b ++ rest) = b :: decodeBytes rest := by
  by_cases hfree : isUnreserved b = true
  · have hne : b ≠ 0x25 := by
      rintro rfl
      exact absurd hfree (by decide)
    rw [encodeByte, if_pos hfree]
    match rest with
    | [] => rfl
    | [_] => rfl
    | _ :: _ :: _ => exact if_neg hne
  · obtain ⟨hhigh, hlow, hbyte⟩ := hexValue?_hexByte b
    simp only [encodeByte, if_neg hfree, List.cons_append, List.nil_append, decodeBytes, if_true,
      hhigh, hlow, hbyte]

theorem decodeBytes_encodeBytes (bytes : List UInt8) : decodeBytes (encodeBytes bytes) = bytes := by
  induction bytes with
  | nil => rfl
  | cons b rest ih =>
      rw [encodeBytes, List.flatMap_cons, decodeBytes_encodeByte]
      exact congrArg _ ih

/-- What a byte is written with is ASCII, and no slash. -/
theorem plain_of_mem_encodeByte {b c : UInt8} (h : c ∈ encodeByte b) : c < 0x80 ∧ c ≠ 0x2f := by
  have hall : ((List.range 256).map UInt8.ofNat).all fun b ↦ (encodeByte b).all fun c ↦
      c < 0x80 ∧ c ≠ 0x2f := by
    decide +kernel
  exact of_decide_eq_true (List.all_eq_true.1 (List.all_eq_true.1 hall b (mem_bytes b)) c h)

theorem plain_of_mem_encodeBytes {bytes : List UInt8} {c : UInt8} (h : c ∈ encodeBytes bytes) :
    c < 0x80 ∧ c ≠ 0x2f := by
  obtain ⟨b, -, hmem⟩ := List.mem_flatMap.1 h
  exact plain_of_mem_encodeByte hmem

/-- Decoding undoes encoding, whatever the text. -/
theorem decode?_encode (text : String) : decode? (encode text) = some text := by
  have hbytes : (encode text).toUTF8.toList = encodeBytes (utf8 text) :=
    utf8_ofList_map fun _ hmem ↦ (plain_of_mem_encodeBytes hmem).1
  rw [decode?, hbytes, decodeBytes_encodeBytes, fromUTF8?_utf8]

/-- Nothing is written with a slash. -/
theorem slash_not_mem_encode (text : String) : '/' ∉ (encode text).toList := by
  rw [encode, String.toList_ofList, List.mem_map]
  rintro ⟨b, hmem, hslash⟩
  obtain ⟨hascii, hne⟩ := plain_of_mem_encodeBytes hmem
  have hall : ((List.range 256).map UInt8.ofNat).all fun b ↦
      b < 0x80 → Char.ofNat b.toNat = '/' → b = 0x2f := by
    decide +kernel
  exact hne (of_decide_eq_true (List.all_eq_true.1 hall b (mem_bytes b)) hascii hslash)

end Percent

/-! ## Base paths -/

/-- Two base paths that differ in slashes around them alone. -/
def SlashesApart (first second : String) : Prop :=
  ∃ (core : List Char) (a b c d : Nat),
    first.toList = List.replicate a '/' ++ core ++ List.replicate b '/' ∧
      second.toList = List.replicate c '/' ++ core ++ List.replicate d '/'

theorem dropSlashes_replicate_append (n : Nat) (cs : List Char) :
    dropSlashes (List.replicate n '/' ++ cs) = dropSlashes cs := by
  rw [dropSlashes, List.dropWhile_append_of_pos]
  · rfl
  · intro c hmem
    exact decide_eq_true (List.eq_of_mem_replicate hmem)

/-- Slashes at the end make no difference to what is left between slashes. -/
theorem dropEndSlashes_dropSlashes_append (cs : List Char) (n : Nat) :
    dropEndSlashes (dropSlashes (cs ++ List.replicate n '/')) =
      dropEndSlashes (dropSlashes cs) := by
  induction cs with
  | nil =>
      have h := dropSlashes_replicate_append n []
      rw [List.append_nil] at h
      rw [List.nil_append, h]
  | cons c rest ih =>
      by_cases hslash : c = '/'
      · simpa [dropSlashes, hslash] using ih
      · have hkeep : ∀ cs, dropSlashes (c :: cs) = c :: cs := by simp [dropSlashes, hslash]
        rw [List.cons_append, hkeep, hkeep, ← List.cons_append, dropEndSlashes, List.reverse_append,
          List.reverse_replicate, dropSlashes_replicate_append]
        rfl

/-- Base paths that differ in slashes around them have one normal form. -/
theorem SlashesApart.normalize {first second : String} (h : SlashesApart first second) :
    normalizeBasePath first = normalizeBasePath second := by
  obtain ⟨core, a, b, c, d, hfirst, hsecond⟩ := h
  simp only [normalizeBasePath, hfirst, hsecond, List.append_assoc, dropSlashes_replicate_append,
    dropEndSlashes_dropSlashes_append]

/-- There is a slash at either end of a normal base path. -/
theorem slash_mem_normalizeBasePath (path : String) : '/' ∈ (normalizeBasePath path).toList := by
  unfold normalizeBasePath
  split
  · decide
  · simp

/-! ## Routes -/

theorem stripLeading?_append (lead rest : List Char) :
    stripLeading? lead (lead ++ rest) = some rest := by
  induction lead with
  | nil => rfl
  | cons c lead ih => simpa [stripLeading?] using ih

/-- A text without slashes ends at the slash behind it. -/
theorem splitAtSlash?_append {before : List Char} (h : '/' ∉ before) (after : List Char) :
    splitAtSlash? (before ++ '/' :: after) = some (before, after) := by
  induction before with
  | nil => rfl
  | cons c before ih =>
      rw [List.mem_cons, not_or] at h
      simp [splitAtSlash?, Ne.symm h.1, ih h.2]

theorem toList_entryPath (basePath group key : String) :
    (entryPath basePath group key).toList =
      basePath.toList ++ ((Percent.encode group).toList ++ '/' :: (Percent.encode key).toList) := by
  simp [entryPath, String.toList_append]

/-- The path of a key is no path of operators: there is one slash more in it. -/
theorem entryPath_ne {basePath fixed : String} (hbase : '/' ∈ basePath.toList) (group key : String)
    (hfixed : fixed.toList.count '/' ≤ 1) : entryPath basePath group key ≠ fixed := by
  rintro rfl
  have hcount := List.count_pos_iff.2 hbase
  rw [toList_entryPath] at hfixed
  simp only [List.count_append, List.count_cons_self] at hfixed
  omega

/-- The path of a key is read as its group and key. -/
theorem route_entryPath {basePath : String} (hbase : '/' ∈ basePath.toList) (group key : String) :
    route basePath "GET" (entryPath basePath group key) = .entry group key := by
  have hfixed : ∀ fixed : String, fixed.toList.count '/' ≤ 1 →
      entryPath basePath group key ≠ fixed := fun _ ↦ entryPath_ne hbase group key
  rw [route, if_pos rfl, routePath, if_neg, if_neg (hfixed _ (by decide)),
    if_neg (hfixed _ (by decide)), toList_entryPath, stripLeading?_append]
  · simp only [routeEntry, splitAtSlash?_append (Percent.slash_not_mem_encode group),
      String.ofList_toList, Percent.decode?_encode]
  · rintro (h | h | h)
    all_goals exact hfixed _ (by decide) h

/-! ## Requests -/

/-- A node that reads a request as a key of a group it has begins a get of that key on that group,
and one without the group says so. -/
theorem serve_entry {c : Cluster} {node : Nat} {n : Node} {method path group key : String}
    (hnode : c.nodes[node]? = some n) (hroute : route n.basePath method path = .entry group key) :
    (c.group? node group = none →
      c.serve node method path = c.respond (.fault (.groupNotFound group))) ∧
    ∀ number g, c.group? node group = some number → c.groups[number]? = some g →
      c.serve node method path =
        (c.setGroup number g.recordServerRequest).begin node number key (.serve group key) false
          false (some (c.now + n.requestTimeout)) := by
  have hgroup : c.group? node group = n.registry.lookup group := by simp [Cluster.group?, hnode]
  refine ⟨fun hnone ↦ ?_, fun number g hsome hg ↦ ?_⟩
  · rw [hgroup] at hnone
    simp only [Cluster.serve, hnode, hroute, hnone]
  · rw [hgroup] at hsome
    simp only [Cluster.serve, hnode, hroute, hsome, hg]

/-- The URLs of clients and the routes of servers are inverse. On every peer a client asks for a key
on one and the same path, which is none of the paths of operators. A server whose base path differs
from that of the client in slashes around it alone reads it as that group and that key, whatever
texts these are, and begins a get of that key on that group, or answers that it has no such group.
So no other group and key have that path. -/
theorem requests_arrive {clientBase serverBase : String} (h : SlashesApart clientBase serverBase)
    (group key : String) :
    let path := entryPath (normalizeBasePath clientBase) group key
    (∀ peer, entryUrl peer (normalizeBasePath clientBase) group key =
      .ofList (dropEndSlashes peer.toList) ++ path) ∧
    path ∉ ["/healthz", "/livez", "/readyz", "/metrics", "/stats"] ∧
    route (normalizeBasePath serverBase) "GET" path = .entry group key ∧
    (∀ (c : Cluster) (node : Nat) (n : Node), c.nodes[node]? = some n →
      n.basePath = normalizeBasePath serverBase →
      (c.group? node group = none →
        c.serve node "GET" path = c.respond (.fault (.groupNotFound group))) ∧
      ∀ number g, c.group? node group = some number → c.groups[number]? = some g →
        c.serve node "GET" path =
          (c.setGroup number g.recordServerRequest).begin node number key (.serve group key) false
            false (some (c.now + n.requestTimeout))) ∧
    ∀ otherGroup otherKey, entryPath (normalizeBasePath clientBase) otherGroup otherKey = path →
      otherGroup = group ∧ otherKey = key := by
  intro path
  have hbase := slash_mem_normalizeBasePath clientBase
  have hroute : route (normalizeBasePath serverBase) "GET" path = .entry group key :=
    h.normalize ▸ route_entryPath hbase group key
  refine ⟨fun peer ↦ rfl, ?_, hroute, fun c node n hnode hserver ↦ ?_,
    fun otherGroup otherKey hsame ↦ ?_⟩
  · simp only [List.mem_cons, List.not_mem_nil, or_false, not_or]
    have hfixed : ∀ fixed : String, fixed.toList.count '/' ≤ 1 → path ≠ fixed :=
      fun _ ↦ entryPath_ne hbase group key
    exact ⟨hfixed _ (by decide), hfixed _ (by decide), hfixed _ (by decide),
      hfixed _ (by decide), hfixed _ (by decide)⟩
  · exact serve_entry hnode (hserver ▸ hroute)
  · have hother := route_entryPath hbase otherGroup otherKey
    rw [hsame, route_entryPath hbase group key] at hother
    injection hother with hgroup hkey
    exact ⟨hgroup.symm, hkey.symm⟩

/-- A group and a key with slashes, percent signs and blanks, below a nested base path. -/
theorem requests_arrive_nested :
    SlashesApart "a/b" "//a/b/" ∧
      route (normalizeBasePath "//a/b/") "GET"
        (entryPath (normalizeBasePath "a/b") "metrics/%" "é ?%2F") =
          .entry "metrics/%" "é ?%2F" := by
  have hbase : SlashesApart "a/b" "//a/b/" := ⟨"a/b".toList, 0, 0, 2, 1, by decide, by decide⟩
  exact ⟨hbase, (requests_arrive hbase "metrics/%" "é ?%2F").2.2.1⟩

end ReadThrough.Http
