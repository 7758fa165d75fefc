import Mathlib.Data.List.TakeWhile
import ReadThrough.Http.RequestLine
import ReadThrough.Proofs.Http.Paths
import ReadThrough.Proofs.Text.Segments

/-!
# Dot segments in the paths of keys

A client takes the dot segments out of a URL before it sends the request. Percent coding leaves a
dot bare, so a group or a key that is one dot or two becomes a dot segment itself, and no other one
does (`isDots_encode`).
-/

namespace ReadThrough.Http

namespace Url

/-- Whether a segment is one dot or two, in any spelling. -/
def isDots (segment : List Char) : Bool :=
  isDotSegment segment || isParentSegment segment

/-- A path without dot segments is left alone. -/
theorem followDots_eq (above : List (List Char)) {path : List (List Char)}
    (h : ∀ segment ∈ path, isDots segment = false) :
    followDots above path = above.reverse ++ path := by
  induction path generalizing above with
  | nil => simp [followDots]
  | cons segment rest ih =>
      obtain ⟨hsegment, hrest⟩ := List.forall_mem_cons.1 h
      obtain ⟨hdot, hparent⟩ := Bool.or_eq_false_iff.1 hsegment
      cases rest with
      | nil => simp [followDots, hdot, hparent]
      | cons second rest => simp [followDots, hdot, hparent, ih _ hrest]

/-- Segments that are no dot segments stay where others follow them. -/
theorem followDots_append (above : List (List Char)) {lead rest : List (List Char)}
    (h : ∀ segment ∈ lead, isDots segment = false) (hne : rest ≠ []) :
    followDots above (lead ++ rest) = followDots (lead.reverse ++ above) rest := by
  induction lead generalizing above with
  | nil => rfl
  | cons segment lead ih =>
      obtain ⟨hsegment, hlead⟩ := List.forall_mem_cons.1 h
      obtain ⟨hdot, hparent⟩ := Bool.or_eq_false_iff.1 hsegment
      obtain ⟨second, others, hcons⟩ :=
        List.exists_cons_of_ne_nil (List.append_ne_nil_of_right_ne_nil lead hne)
      rw [List.cons_append, hcons, followDots, if_neg (by simp [hparent]), if_neg (by simp [hdot]),
        ← hcons, ih _ hlead]
      · simp
      · exact fun hnil ↦ by simp at hnil

/-- What is left of a path are segments of it, and at the end perhaps an empty one. -/
theorem mem_followDots {above path : List (List Char)} {segment : List Char}
    (h : segment ∈ followDots above path) : segment ∈ above ∨ segment ∈ path ∨ segment = [] := by
  fun_induction followDots above path with
  | case1 above => exact .inl (List.mem_reverse.1 h)
  | case2 above last hparent =>
      rcases List.mem_cons.1 (List.mem_reverse.1 h) with rfl | h
      · exact .inr (.inr rfl)
      · exact .inl (List.mem_of_mem_tail h)
  | case3 above last hparent hdot =>
      rcases List.mem_cons.1 (List.mem_reverse.1 h) with rfl | h
      · exact .inr (.inr rfl)
      · exact .inl h
  | case4 above last hparent hdot =>
      rcases List.mem_cons.1 (List.mem_reverse.1 h) with rfl | h
      · exact .inr (.inl List.mem_cons_self)
      · exact .inl h
  | case5 above first rest hmore hparent ih =>
      exact (ih h).imp List.mem_of_mem_tail (Or.imp_left (List.mem_cons_of_mem _))
  | case6 above first rest hmore hparent hdot ih =>
      exact (ih h).imp_right (Or.imp_left (List.mem_cons_of_mem _))
  | case7 above first rest hmore hparent hdot ih =>
      rcases ih h with h | h
      · rcases List.mem_cons.1 h with rfl | h
        · exact .inr (.inl List.mem_cons_self)
        · exact .inl h
      · exact .inr (h.imp_left (List.mem_cons_of_mem _))

theorem removeDotSegments_eq {path : List (List Char)}
    (h : ∀ segment ∈ path, isDots segment = false) : removeDotSegments path = path :=
  followDots_eq [] h

end Url

namespace Percent

/-- The character that a byte is written as, in lower case. -/
def lowerChar (b : UInt8) : Char :=
  (Char.ofNat b.toNat).toLower

/-- Codes spell one dot of a dot segment. -/
def SpellsDot (codes : List UInt8) : Prop :=
  codes.map lowerChar = ['.'] ∨ codes.map lowerChar = ['%', '2', 'e']

/-- Codes that spell a dot are read as a dot, whatever follows. -/
theorem SpellsDot.decodeBytes_append {codes : List UInt8} (h : SpellsDot codes)
    (hascii : ∀ b ∈ codes, b < 0x80) (rest : List UInt8) :
    decodeBytes (codes ++ rest) = 0x2e :: decodeBytes rest := by
  have hall : ((List.range 256).map UInt8.ofNat).all fun b ↦ b < 0x80 →
      (lowerChar b = '.' → b = 0x2e) ∧ (lowerChar b = '%' → b = 0x25) ∧
      (lowerChar b = '2' → b = 0x32) ∧ (lowerChar b = 'e' → b = 0x45 ∨ b = 0x65) := by
    decide +kernel
  have hbyte (b : UInt8) := of_decide_eq_true (List.all_eq_true.1 hall b (mem_bytes b))
  rcases h with h | h
  · obtain ⟨dot, none, rfl, hdot, hnone⟩ := List.map_eq_cons_iff.1 h
    obtain rfl := List.map_eq_nil_iff.1 hnone
    rw [(hbyte dot (hascii dot List.mem_cons_self)).1 hdot]
    exact decodeBytes_encodeByte 0x2e rest
  · simp only [List.map_eq_cons_iff, List.map_eq_nil_iff] at h
    obtain ⟨percent, _, rfl, hpercent, two, _, rfl, htwo, letter, _, rfl, hletter, rfl⟩ := h
    simp only [List.forall_mem_cons] at hascii
    obtain ⟨hpercent', htwo', hletter', -⟩ := hascii
    rw [(hbyte percent hpercent').2.1 hpercent, (hbyte two htwo').2.2.1 htwo]
    rcases (hbyte letter hletter').2.2.2 hletter with rfl | rfl <;> rfl

/-- The codes of a parent segment spell two dots. -/
theorem spells_of_isParentSegment {codes : List UInt8}
    (h : Url.isParentSegment (codes.map fun b ↦ Char.ofNat b.toNat) = true) :
    ∃ first second, codes = first ++ second ∧ SpellsDot first ∧ SpellsDot second := by
  have hcut {a b : List Char} (heq : codes.map lowerChar = a ++ b)
      (ha : a = ['.'] ∨ a = ['%', '2', 'e']) (hb : b = ['.'] ∨ b = ['%', '2', 'e']) :
      ∃ first second, codes = first ++ second ∧ SpellsDot first ∧ SpellsDot second := by
    obtain ⟨first, second, hcodes, rfl, rfl⟩ := List.map_eq_append_iff.1 heq
    exact ⟨first, second, hcodes, ha, hb⟩
  simp only [Url.isParentSegment, List.map_map, Bool.or_eq_true, beq_iff_eq] at h
  rcases h with ((h | h) | h) | h
  · exact hcut (a := ['.']) (b := ['.']) h (.inl rfl) (.inl rfl)
  · exact hcut (a := ['.']) (b := ['%', '2', 'e']) h (.inl rfl) (.inr rfl)
  · exact hcut (a := ['%', '2', 'e']) (b := ['.']) h (.inr rfl) (.inl rfl)
  · exact hcut (a := ['%', '2', 'e']) (b := ['%', '2', 'e']) h (.inr rfl) (.inr rfl)

theorem spells_of_isDotSegment {codes : List UInt8}
    (h : Url.isDotSegment (codes.map fun b ↦ Char.ofNat b.toNat) = true) : SpellsDot codes := by
  simp only [Url.isDotSegment, List.map_map, Bool.or_eq_true, beq_iff_eq] at h
  exact h

/-- An encoded text is a dot segment just if the text is one dot or two. -/
theorem isDots_encode (text : String) :
    Url.isDots (encode text).toList = true ↔ text = "." ∨ text = ".." := by
  have hascii : ∀ b ∈ encodeBytes (utf8 text), b < 0x80 :=
    fun b hmem ↦ (plain_of_mem_encodeBytes hmem).1
  have hone : utf8 "." = [0x2e] := @utf8_ofList_map [0x2e] (by simp)
  have htwo : utf8 ".." = [0x2e, 0x2e] := @utf8_ofList_map [0x2e, 0x2e] (by simp)
  rw [encode, String.toList_ofList, ← utf8]
  constructor
  · intro h
    rw [← utf8_inj, ← utf8_inj, hone, htwo, ← decodeBytes_encodeBytes (utf8 text)]
    generalize encodeBytes (utf8 text) = codes at h hascii
    rcases Bool.or_eq_true_iff.1 h with hdot | hparent
    · have hcodes := (spells_of_isDotSegment hdot).decodeBytes_append hascii []
      rw [List.append_nil] at hcodes
      exact .inl hcodes
    · obtain ⟨first, second, rfl, hfirst, hsecond⟩ := spells_of_isParentSegment hparent
      obtain ⟨hleft, hright⟩ := List.forall_mem_append.1 hascii
      have hcodes := hsecond.decodeBytes_append hright []
      rw [List.append_nil] at hcodes
      exact .inr ((hfirst.decodeBytes_append hleft second).trans (congrArg _ hcodes))
  · rintro (rfl | rfl)
    · rw [hone]
      decide
    · rw [htwo]
      decide

end Percent

/-! ## Base paths -/

/-- What is left without slashes in front has the segments that there were. -/
theorem mem_segments_of_dropSlashes {cs segment : List Char}
    (h : segment ∈ Text.segments (dropSlashes cs)) : segment ∈ Text.segments cs := by
  induction cs with
  | nil => exact h
  | cons c rest ih =>
      by_cases hslash : c = '/'
      · rw [hslash, Text.segments_slash]
        refine List.mem_cons_of_mem _ (ih ?_)
        simpa [dropSlashes, hslash] using h
      · simpa [dropSlashes, hslash] using h

/-- What is left without slashes at the end is followed by none, or by one that ends it. -/
theorem dropEndSlashes_cases (cs : List Char) :
    cs = dropEndSlashes cs ∨ ∃ rest, cs = dropEndSlashes cs ++ '/' :: rest := by
  have hcs : cs = dropEndSlashes cs ++ (cs.reverse.takeWhile (· = '/')).reverse := by
    rw [dropEndSlashes, dropSlashes, ← List.reverse_append, List.takeWhile_append_dropWhile,
      List.reverse_reverse]
  cases hslashes : (cs.reverse.takeWhile (· = '/')).reverse with
  | nil =>
      rw [hslashes, List.append_nil] at hcs
      exact .inl hcs
  | cons c rest =>
      have hmem : c ∈ cs.reverse.takeWhile (· = '/') := by
        rw [← List.mem_reverse, hslashes]
        exact List.mem_cons_self
      obtain rfl : c = '/' := of_decide_eq_true (List.all_eq_true.1 List.all_takeWhile c hmem)
      exact .inr ⟨rest, hslashes ▸ hcs⟩

theorem mem_segments_of_dropEndSlashes {cs segment : List Char}
    (h : segment ∈ Text.segments (dropEndSlashes cs)) : segment ∈ Text.segments cs := by
  rcases dropEndSlashes_cases cs with hsame | ⟨rest, hcut⟩
  · rwa [← hsame] at h
  · rw [hcut, Text.segments_append]
    exact List.mem_append_left _ h

/-- The segments of a path, after its leading slash. -/
def pathSegments (path : String) : List (List Char) :=
  Text.segments (path.toList.drop 1)

/-- The path of a key has segments of the base path, and two more for the group and the key. -/
theorem pathSegments_entryPath (base : String) : ∃ lead,
    (∀ segment ∈ lead, segment ∈ Text.segments base.toList) ∧
    pathSegments (normalizeBasePath base) = lead ++ [[]] ∧
    ∀ group key, pathSegments (entryPath (normalizeBasePath base) group key) =
      lead ++ [(Percent.encode group).toList, (Percent.encode key).toList] := by
  have hentry (group key : String) :
      Text.segments ((Percent.encode group).toList ++ '/' :: (Percent.encode key).toList) =
        [(Percent.encode group).toList, (Percent.encode key).toList] := by
    rw [Text.segments_append, Text.segments_eq_singleton (Percent.slash_not_mem_encode group),
      Text.segments_eq_singleton (Percent.slash_not_mem_encode key)]
    rfl
  unfold normalizeBasePath
  split
  · refine ⟨[], nofun, rfl, fun group key ↦ ?_⟩
    rw [pathSegments, toList_entryPath]
    exact hentry group key
  · have hcore : ∀ segment ∈ Text.segments (dropEndSlashes (dropSlashes base.toList)),
        segment ∈ Text.segments base.toList :=
      fun _ hmem ↦ mem_segments_of_dropSlashes (mem_segments_of_dropEndSlashes hmem)
    generalize dropEndSlashes (dropSlashes base.toList) = core at hcore
    refine ⟨Text.segments core, hcore, ?_, fun group key ↦ ?_⟩
    · rw [pathSegments, String.toList_ofList]
      exact Text.segments_append core []
    · rw [pathSegments, toList_entryPath, String.toList_ofList]
      have hpath : (('/' :: core ++ ['/']) ++ ((Percent.encode group).toList ++
          '/' :: (Percent.encode key).toList)).drop 1 =
          core ++ '/' :: ((Percent.encode group).toList ++ '/' :: (Percent.encode key).toList) := by
        simp
      rw [hpath, Text.segments_append, hentry]

/-! ## URLs of plain characters -/

namespace Url

/-- Whether a character stands for itself in a path. -/
def isPlain (c : Char) : Bool :=
  c.toNat < 0x7f && !isUnsafeInPath (.ofNat c.toNat) && c ≠ '\\'

theorem isPlain_spec {c : Char} (h : isPlain c = true) :
    0x20 < c.toNat ∧ c.toNat < 0x7f ∧ c ≠ '?' ∧ c ≠ '#' ∧ c ≠ '\\' ∧ isPathChar c = true ∧
      isUnsafeInPath (.ofNat c.toNat) = false := by
  have hall : (List.range 0x7f).all fun n ↦ isPlain (.ofNat n) = true →
      0x20 < n ∧ Char.ofNat n ≠ '?' ∧ Char.ofNat n ≠ '#' ∧ Char.ofNat n ≠ '\\' ∧
        isPathChar (.ofNat n) = true ∧ isUnsafeInPath (.ofNat n) = false := by
    decide +kernel
  have hlt : c.toNat < 0x7f := by
    simp only [isPlain, Bool.and_eq_true, decide_eq_true_eq] at h
    exact h.1.1
  have hchar := of_decide_eq_true (List.all_eq_true.1 hall c.toNat (List.mem_range.2 hlt))
  rw [Char.ofNat_toNat] at hchar
  obtain ⟨hblank, hquestion, hhash, hback, hpath, hsafe⟩ := hchar h
  exact ⟨hblank, hlt, hquestion, hhash, hback, hpath, hsafe⟩

/-- Plain characters begin neither a query nor a fragment. -/
theorem takeWhile_path {cs : List Char} (h : ∀ c ∈ cs, isPlain c = true) :
    cs.takeWhile (fun c ↦ c ≠ '?' ∧ c ≠ '#') = cs := by
  refine List.takeWhile_eq_self_iff.2 fun c hmem ↦ ?_
  obtain ⟨-, -, hquestion, hhash, -⟩ := isPlain_spec (h c hmem)
  exact decide_eq_true ⟨hquestion, hhash⟩

theorem takeWhile_unfragmented {cs : List Char} (h : ∀ c ∈ cs, isPlain c = true) :
    cs.takeWhile (· ≠ '#') = cs :=
  List.takeWhile_eq_self_iff.2 fun c hmem ↦ decide_eq_true (isPlain_spec (h c hmem)).2.2.2.1

theorem dropWhile_query {cs : List Char} (h : ∀ c ∈ cs, isPlain c = true) :
    cs.dropWhile (· ≠ '?') = [] :=
  List.dropWhile_eq_nil_iff.2 fun c hmem ↦ decide_eq_true (isPlain_spec (h c hmem)).2.2.1

/-- Plain characters are not escaped. -/
theorem escape_eq {cs : List Char} (h : ∀ c ∈ cs, isPlain c = true) :
    escape isUnsafeInPath cs = cs := by
  have hbytes : (String.ofList cs).toUTF8.toList = cs.map fun c ↦ .ofNat c.toNat :=
    utf8_ofList fun c hmem ↦ Nat.lt_succ_of_lt (isPlain_spec (h c hmem)).2.1
  rw [escape, hbytes, List.flatMap_map]
  clear hbytes
  induction cs with
  | nil => rfl
  | cons c rest ih =>
      obtain ⟨-, hlt, -, -, -, -, hsafe⟩ := isPlain_spec (h c List.mem_cons_self)
      rw [List.flatMap_cons, if_neg (hsafe ▸ Bool.false_ne_true), UInt8.toNat_ofNat',
        Nat.mod_eq_of_lt (by omega), Char.ofNat_toNat,
        ih fun other hmem ↦ h other (List.mem_cons_of_mem _ hmem)]
      rfl

theorem dropWhile_eq_self {cs : List Char} {p : Char → Bool} (h : ∀ c ∈ cs, p c = false) :
    cs.dropWhile p = cs := by
  cases cs with
  | nil => rfl
  | cons c rest => exact List.dropWhile_cons_of_neg (by simp [h c List.mem_cons_self])

/-- A text without blanks is clean. -/
theorem clean_eq {cs : List Char} (h : ∀ c ∈ cs, 0x20 < c.toNat) : clean cs = cs := by
  have hblank : ∀ c ∈ cs, decide (c.toNat ≤ 0x20) = false :=
    fun c hmem ↦ decide_eq_false (Nat.not_le.2 (h c hmem))
  rw [clean, dropWhile_eq_self hblank, dropWhile_eq_self, List.reverse_reverse,
    List.filter_eq_self.2]
  · intro c hmem
    have hlt := h c hmem
    refine decide_eq_true ⟨?_, ?_, ?_⟩
    all_goals
      rintro rfl
      exact absurd hlt (by decide)
  · exact fun c hmem ↦ hblank c (List.mem_reverse.1 hmem)

/-- A letter or a digit is neither blank nor the end of an authority. -/
theorem spec_of_isAlphanum {c : Char} (h : c.isAlphanum = true) :
    0x20 < c.toNat ∧ endsAuthority c = false := by
  constructor
  · have hall : (List.range 0x21).all fun n ↦ !(Char.ofNat n).isAlphanum := by
      decide
    refine Nat.lt_of_not_le fun hle ↦ ?_
    have hnot := List.all_eq_true.1 hall c.toNat (List.mem_range.2 (Nat.lt_succ_of_le hle))
    rw [Char.ofNat_toNat, h] at hnot
    cases hnot
  · rw [← Bool.not_eq_true]
    intro hends
    simp only [endsAuthority, Bool.or_eq_true, decide_eq_true_eq] at hends
    rcases hends with ((rfl | rfl) | rfl) | rfl <;> exact absurd h (by decide)

/-- An authority has a character, none that is blank, and none that ends it. -/
theorem isAuthority_spec {cs : List Char} (h : isAuthority cs = true) :
    cs ≠ [] ∧ ∀ c ∈ cs, 0x20 < c.toNat ∧ endsAuthority c = false := by
  simp only [isAuthority, Bool.and_eq_true, isPort] at h
  obtain ⟨⟨hne, hhost⟩, hport, -⟩ := h
  constructor
  · rintro rfl
    exact absurd hne (by decide)
  · intro c hmem
    rw [← List.takeWhile_append_dropWhile (p := (· ≠ ':')) (l := cs), List.mem_append] at hmem
    rcases hmem with hmem | hmem
    · have hc := List.all_eq_true.1 hhost c hmem
      simp only [Bool.or_eq_true, decide_eq_true_eq] at hc
      rcases hc with ((hc | rfl) | rfl) | rfl
      · exact spec_of_isAlphanum hc
      all_goals decide
    · cases hrest : cs.dropWhile (· ≠ ':') with
      | nil =>
          rw [hrest] at hmem
          cases hmem
      | cons colon port =>
          rw [hrest] at hmem hport
          rcases List.mem_cons.1 hmem with rfl | hmem
          · have hcolon := List.head_dropWhile_not (fun c ↦ decide (c ≠ ':')) (l := cs)
              (hrest ▸ List.cons_ne_nil _ _)
            simp only [hrest, List.head_cons, decide_eq_false_iff_not] at hcolon
            obtain rfl : c = ':' := Decidable.not_not.1 hcolon
            decide
          · refine spec_of_isAlphanum ?_
            have hdigit := List.all_eq_true.1 hport c hmem
            simp [Char.isAlphanum, hdigit]

/-- A name without a port is an authority. -/
theorem isAuthority_of_name {cs : List Char} (hne : cs ≠ [])
    (h : (cs.all fun c ↦ c.isAlphanum || c = '-' || c = '.' || c = '_') = true) :
    isAuthority cs = true := by
  have hcolon : ∀ c ∈ cs, decide (c ≠ ':') = true := fun c hmem ↦ by
    have hc := List.all_eq_true.1 h c hmem
    simp only [Bool.or_eq_true, decide_eq_true_eq] at hc
    refine decide_eq_true fun heq ↦ ?_
    subst heq
    revert hc
    decide
  have hport : isPort [] = true := by
    have hzero : (String.ofList ['0']).toNat? = some 0 := by
      unfold String.toNat? String.Slice.toNat? String.Slice.isNat
      simp [String.Slice.foldl_eq_foldl_toList]
    simp [isPort, hzero]
  simp only [isAuthority, List.takeWhile_eq_self_iff.2 hcolon, List.dropWhile_eq_nil_iff.2 hcolon,
    h, List.drop_nil, hport, Bool.and_true]
  simpa using hne

/-- What follows a scheme begins with the authority. -/
theorem afterScheme?_eq {scheme authority : List Char} (rest : List Char)
    (hscheme : scheme = "http".toList ∨ scheme = "https".toList)
    (hauthority : isAuthority authority = true) :
    afterScheme? (scheme ++ "://".toList ++ authority ++ rest) = some (authority ++ rest) := by
  obtain ⟨hne, hspec⟩ := isAuthority_spec hauthority
  obtain ⟨first, others, rfl⟩ := List.exists_cons_of_ne_nil hne
  have hfirst := (hspec first List.mem_cons_self).2
  simp only [endsAuthority, Bool.or_eq_false_iff, decide_eq_false_iff_not] at hfirst
  obtain ⟨⟨⟨hslash, hback⟩, -⟩, -⟩ := hfirst
  rcases hscheme with rfl | rfl <;> simp [afterScheme?, hslash, hback]

/-- A path of plain characters is read as its segments, less dot segments. -/
theorem readPath_eq {path : List Char} (hplain : ∀ c ∈ path, isPlain c = true) :
    readPath ('/' :: path) = removeDotSegments (Text.segments path) := by
  have hall : ∀ c ∈ '/' :: path, isPlain c = true :=
    List.forall_mem_cons.2 ⟨by decide, hplain⟩
  have hpath : ((('/' :: path).takeWhile fun c ↦ c ≠ '?' ∧ c ≠ '#').map
      fun c ↦ if c = '\\' then '/' else c) = '/' :: path := by
    rw [takeWhile_path hall, List.map_congr_left (g := id), List.map_id]
    exact fun c hmem ↦ if_neg (isPlain_spec (hall c hmem)).2.2.2.2.1
  rw [readPath, hpath, List.drop_one, List.tail_cons]
  refine (List.map_congr_left fun segment hmem ↦ escape_eq fun c hc ↦ ?_).trans (List.map_id _)
  rcases mem_followDots hmem with hmem | hmem | rfl
  · cases hmem
  · exact hplain c (Text.mem_of_mem_segment hmem hc)
  · cases hc

theorem readQuery_eq {path : List Char} (hplain : ∀ c ∈ path, isPlain c = true) :
    readQuery path = none := by
  rw [readQuery, takeWhile_unfragmented hplain, dropWhile_query hplain]

/-- What comes between a scheme and a path of plain characters is the authority, and the path is
sent as it is, less dot segments. -/
theorem target_parse? {scheme authority path : List Char}
    (hscheme : scheme = "http".toList ∨ scheme = "https".toList)
    (hauthority : isAuthority authority = true) (hplain : ∀ c ∈ path, isPlain c = true) :
    (parse? (.ofList (scheme ++ "://".toList ++ authority ++ '/' :: path))).map target =
      some (.ofList ('/' ::
        ((removeDotSegments (Text.segments path)).intersperse ['/']).flatten)) := by
  have hspec := (isAuthority_spec hauthority).2
  have hunblank {text : String} (h : (text.toList.all fun c ↦ 0x20 < c.toNat) = true) :
      ∀ c ∈ text.toList, 0x20 < c.toNat :=
    fun c hmem ↦ of_decide_eq_true (List.all_eq_true.1 h c hmem)
  have hclean : clean (scheme ++ "://".toList ++ authority ++ '/' :: path) =
      scheme ++ "://".toList ++ authority ++ '/' :: path := by
    refine clean_eq ?_
    simp only [List.forall_mem_append, List.forall_mem_cons]
    refine ⟨⟨⟨?_, hunblank (by decide)⟩, fun c hmem ↦ (hspec c hmem).1⟩, by decide,
      fun c hmem ↦ (isPlain_spec (hplain c hmem)).1⟩
    rcases hscheme with rfl | rfl <;> exact hunblank (by decide)
  have hends : ∀ c ∈ authority, (!endsAuthority c) = true := fun c hmem ↦ by
    rw [(hspec c hmem).2]
    rfl
  have hslash : (!endsAuthority '/') = false := by decide
  have htake : (authority ++ '/' :: path).takeWhile (fun c ↦ !endsAuthority c) = authority := by
    rw [List.takeWhile_append_of_pos hends, List.takeWhile_cons_of_neg (by simp [hslash]),
      List.append_nil]
  have hdrop : (authority ++ '/' :: path).dropWhile (fun c ↦ !endsAuthority c) = '/' :: path := by
    rw [List.dropWhile_append_of_pos hends, List.dropWhile_cons_of_neg (by simp [hslash])]
  rw [parse?, String.toList_ofList, hclean, afterScheme?_eq ('/' :: path) hscheme hauthority]
  simp only [Option.bind_eq_bind, Option.bind_some, htake, hdrop, hauthority, if_true]
  rw [Option.map_some, target, readPath_eq hplain, readQuery_eq]
  · simp
  · exact List.forall_mem_cons.2 ⟨by decide, hplain⟩

end Url

theorem targetPath?_eq {path : List Char} (hplain : ∀ c ∈ path, Url.isPlain c = true) :
    targetPath? path = some path := by
  have hpath : path.all isPathChar = true := List.all_eq_true.2 fun c hmem ↦
    (Url.isPlain_spec (hplain c hmem)).2.2.2.2.2.1
  simp only [targetPath?, Url.takeWhile_path hplain, Url.takeWhile_unfragmented hplain,
    Url.dropWhile_query hplain]
  exact if_pos ⟨hpath, rfl⟩

/-- A path of plain characters is received as it is. -/
theorem receive_eq {path : List Char} (hplain : ∀ c ∈ path, Url.isPlain c = true)
    (hsize : (String.ofList ('/' :: path)).utf8ByteSize ≤ maxUrlBytes) :
    receive "GET" (.ofList ('/' :: path)) = .request "GET" (.ofList ('/' :: path)) := by
  have hall : ∀ c ∈ '/' :: path, Url.isPlain c = true :=
    List.forall_mem_cons.2 ⟨by decide, hplain⟩
  have hchars : ('/' :: path).all isTargetChar = true := List.all_eq_true.2 fun c hmem ↦ by
    obtain ⟨-, -, -, -, -, hpath, -⟩ := Url.isPlain_spec (hall c hmem)
    simp only [isPathChar, Bool.and_eq_true] at hpath
    exact hpath.1.1.1
  have hread : readTarget? ('/' :: path) = some ('/' :: path) := targetPath?_eq hall
  have hget : (!"GET".isEmpty && "GET".toList.all isTokenChar) = true := by decide +kernel
  have hnonempty : (String.ofList ('/' :: path)).isEmpty = false := by
    simp [String.isEmpty_eq_false_iff]
  simp only [receive, hget, hnonempty, hchars, String.toList_ofList, hread, Bool.not_true,
    Bool.or_self, Bool.false_eq_true, if_false, Nat.not_lt.2 hsize]

/-! ## Paths that survive -/

theorem dropEndSlashes_append {core : List Char} (before : List Char) (n : Nat) (hne : core ≠ [])
    (hcore : '/' ∉ core) :
    dropEndSlashes (before ++ core ++ List.replicate n '/') = before ++ core := by
  obtain ⟨last, rest, hlast⟩ := List.exists_cons_of_ne_nil (List.reverse_ne_nil_iff.2 hne)
  have hmem : last ∈ core := List.mem_reverse.1 (hlast ▸ List.mem_cons_self)
  have hslash : last ≠ '/' := fun heq ↦ hcore (heq ▸ hmem)
  rw [dropEndSlashes, List.reverse_append, List.reverse_replicate, dropSlashes_replicate_append,
    List.reverse_append, hlast, List.cons_append, dropSlashes,
    List.dropWhile_cons_of_neg (by simp [hslash]), ← List.cons_append, ← hlast,
    ← List.reverse_append, List.reverse_reverse]

/-- No segment of a base path is a dot segment. -/
def Dotless (base : String) : Prop :=
  ∀ segment ∈ Text.segments base.toList, Url.isDots segment = false

theorem subset_dropSlashes (cs : List Char) : dropSlashes cs ⊆ cs :=
  (List.dropWhile_suffix _).subset

theorem subset_dropEndSlashes (cs : List Char) : dropEndSlashes cs ⊆ cs := by
  intro c hmem
  exact List.mem_reverse.1 (subset_dropSlashes _ (List.mem_reverse.1 hmem))

/-- Every character of an encoded text stands for itself. -/
theorem isPlain_of_mem_encode {text : String} {c : Char}
    (h : c ∈ (Percent.encode text).toList) : Url.isPlain c = true := by
  have hall : ((List.range 256).map UInt8.ofNat).all fun b ↦ (Percent.encodeByte b).all fun code ↦
      Url.isPlain (.ofNat code.toNat) := by
    decide +kernel
  rw [Percent.encode, String.toList_ofList] at h
  obtain ⟨code, hcode, rfl⟩ := List.mem_map.1 h
  obtain ⟨b, -, hmem⟩ := List.mem_flatMap.1 hcode
  exact List.all_eq_true.1 (List.all_eq_true.1 hall b (Percent.mem_bytes b)) code hmem

theorem exists_normalizeBasePath (base : String) :
    ∃ tail, (normalizeBasePath base).toList = '/' :: tail := by
  unfold normalizeBasePath
  split
  · exact ⟨[], rfl⟩
  · exact ⟨_, String.toList_ofList⟩

/-- The path of a key begins with a slash, and what follows is plain if the base path is. -/
theorem exists_entryPath (base group key : String) : ∃ tail,
    (entryPath (normalizeBasePath base) group key).toList = '/' :: tail ∧
      ((∀ c ∈ base.toList, Url.isPlain c = true) → ∀ c ∈ tail, Url.isPlain c = true) := by
  have hslash : Url.isPlain '/' = true := by decide
  have hentry : ∀ c ∈ (Percent.encode group).toList ++ '/' :: (Percent.encode key).toList,
      Url.isPlain c = true :=
    List.forall_mem_append.2 ⟨fun _ ↦ isPlain_of_mem_encode,
      List.forall_mem_cons.2 ⟨hslash, fun _ ↦ isPlain_of_mem_encode⟩⟩
  rw [toList_entryPath]
  unfold normalizeBasePath
  split
  · exact ⟨_, rfl, fun _ ↦ hentry⟩
  · rw [String.toList_ofList]
    refine ⟨_, rfl, fun hbase ↦ ?_⟩
    refine List.forall_mem_append.2 ⟨List.forall_mem_append.2 ⟨fun c hmem ↦ hbase c ?_, ?_⟩, hentry⟩
    · exact subset_dropSlashes _ (subset_dropEndSlashes _ hmem)
    · exact List.forall_mem_singleton.2 hslash

/-- Which segments of the path of a key are dot segments. -/
theorem exists_isDots_iff {base : String} (hbase : Dotless base) (group key : String) :
    (∃ segment ∈ pathSegments (entryPath (normalizeBasePath base) group key),
      Url.isDots segment = true) ↔ (group = "." ∨ group = "..") ∨ key = "." ∨ key = ".." := by
  obtain ⟨lead, hlead, -, hpath⟩ := pathSegments_entryPath base
  rw [hpath, ← Percent.isDots_encode, ← Percent.isDots_encode]
  constructor
  · rintro ⟨segment, hmem, hdots⟩
    simp only [List.mem_append, List.mem_cons, List.not_mem_nil, or_false] at hmem
    rcases hmem with hmem | rfl | rfl
    · cases (hbase segment (hlead segment hmem)).symm.trans hdots
    · exact .inl hdots
    · exact .inr hdots
  · rintro (hdots | hdots)
    · exact ⟨_, by simp, hdots⟩
    · exact ⟨_, by simp, hdots⟩

/-- The path that a client asks on: a path less its dot segments. -/
def sentPath (path : String) : String :=
  .ofList ('/' :: ((Url.removeDotSegments (pathSegments path)).intersperse ['/']).flatten)

/-- A path is sent as another one if that has the segments that are left of it. -/
theorem sentPath_eq {path sent : String} (hslash : ∃ tail, sent.toList = '/' :: tail)
    (h : Url.removeDotSegments (pathSegments path) = pathSegments sent) : sentPath path = sent := by
  obtain ⟨tail, htail⟩ := hslash
  rw [sentPath, h, pathSegments, Text.flatten_segments, htail, List.drop_one, List.tail_cons,
    ← htail, String.ofList_toList]

/-- The request line for a key is that for its path less dot segments, where the base path has plain
characters only. -/
theorem requestLine?_entryUrl {base : String} (hbase : ∀ c ∈ base.toList, Url.isPlain c = true)
    (group key : String) {scheme authority : List Char}
    (hscheme : scheme = "http".toList ∨ scheme = "https".toList)
    (hauthority : Url.isAuthority authority = true) (slashes : Nat) :
    let path := entryPath (normalizeBasePath base) group key
    let peer := scheme ++ "://".toList ++ authority ++ List.replicate slashes '/'
    let url := entryUrl (.ofList peer) (normalizeBasePath base) group key
    url.utf8ByteSize ≤ maxUrlBytes →
    requestLine? url = some ("GET " ++ sentPath path ++ " HTTP/1.1") ∧
      receive "GET" path = .request "GET" path := by
  intro path peer url hsize
  obtain ⟨tail, htail, hplain⟩ := exists_entryPath base group key
  have hpath : path = .ofList ('/' :: tail) := by
    rw [← htail, String.ofList_toList]
  have hsent : sentPath path = .ofList
      ('/' :: ((Url.removeDotSegments (Text.segments tail)).intersperse ['/']).flatten) := by
    rw [sentPath, pathSegments, htail, List.drop_one, List.tail_cons]
  obtain ⟨hne, hspec⟩ := Url.isAuthority_spec hauthority
  have hcore : '/' ∉ authority := fun hmem ↦ by
    have hends := (hspec '/' hmem).2
    revert hends
    decide
  have hurl : url = .ofList (scheme ++ "://".toList ++ authority ++ '/' :: tail) := by
    rw [String.ofList_append, ← hpath]
    show String.ofList (dropEndSlashes (String.ofList peer).toList) ++ path = _
    rw [String.toList_ofList, dropEndSlashes_append _ slashes hne hcore]
  have htarget := Url.target_parse? hscheme hauthority (hplain hbase)
  rw [← hurl, ← hsent] at htarget
  obtain ⟨parsed, hparsed, hline⟩ := Option.map_eq_some_iff.1 htarget
  constructor
  · simp only [requestLine?, hparsed, Option.bind_eq_bind, Option.bind_some, if_pos hsize, hline]
  · rw [hpath]
    refine receive_eq (hplain hbase) ?_
    rw [← hpath]
    refine Nat.le_trans ?_ hsize
    show path.utf8ByteSize ≤ (String.ofList (dropEndSlashes _) ++ path).utf8ByteSize
    rw [String.utf8ByteSize_append]
    exact Nat.le_add_left _ _

/-- What becomes of the path of a key that is one dot or two: it is sent as that of the empty key of
the same group, or as the base path. -/
theorem sentPath_dots {base group : String} (hbase : Dotless base)
    (hgroup : ¬(group = "." ∨ group = "..")) :
    sentPath (entryPath (normalizeBasePath base) group ".") =
        entryPath (normalizeBasePath base) group "" ∧
      sentPath (entryPath (normalizeBasePath base) group "..") = normalizeBasePath base := by
  obtain ⟨lead, hlead, hroot, hpath⟩ := pathSegments_entryPath base
  have hkept : ∀ segment ∈ lead ++ [(Percent.encode group).toList], Url.isDots segment = false := by
    refine List.forall_mem_append.2 ⟨fun segment hmem ↦ hbase segment (hlead segment hmem),
      List.forall_mem_singleton.2 ?_⟩
    rw [← Percent.isDots_encode, Bool.not_eq_true] at hgroup
    exact hgroup
  have hempty : (Percent.encode "").toList = [] := by decide +kernel
  have hdot : (Percent.encode ".").toList = ['.'] := by decide +kernel
  have hdots : (Percent.encode "..").toList = ['.', '.'] := by decide +kernel
  have hlast (last : List Char) : lead ++ [(Percent.encode group).toList, last] =
      (lead ++ [(Percent.encode group).toList]) ++ [last] := by simp
  have hfollow (last : List Char) := Url.followDots_append [] hkept (List.cons_ne_nil last [])
  constructor
  · obtain ⟨tail, htail, -⟩ := exists_entryPath base group ""
    refine sentPath_eq ⟨tail, htail⟩ ?_
    rw [hpath, hpath, hempty, hdot, hlast, Url.removeDotSegments, hfollow]
    simp [Url.followDots, Url.isParentSegment, Url.isDotSegment]
  · refine sentPath_eq (exists_normalizeBasePath base) ?_
    rw [hpath, hroot, hdots, hlast, Url.removeDotSegments, hfollow]
    simp [Url.followDots, Url.isParentSegment]

/-- Take any base path without dot segments. A segment of the path of a key is a dot segment just if
the group or the key is one dot or two. For all others the path stays as it is where dot segments
are taken out, and a server with that base path, up to slashes around it, reads it as that group and
key. In any other group a key of one dot is asked for as the empty key, and one of two dots by the
base path alone. Where the base path has plain characters only, this is what the request line has
that goes out to any address, and the server takes the path in as it is. -/
theorem paths_survive_iff {base : String} (hbase : Dotless base) (group key : String) :
    let path := entryPath (normalizeBasePath base) group key
    ((∃ segment ∈ pathSegments path, Url.isDots segment = true) ↔
      (group = "." ∨ group = "..") ∨ key = "." ∨ key = "..") ∧
    (¬((group = "." ∨ group = "..") ∨ key = "." ∨ key = "..") →
      Url.removeDotSegments (pathSegments path) = pathSegments path ∧ sentPath path = path ∧
      ∀ serverBase, SlashesApart base serverBase →
        route (normalizeBasePath serverBase) "GET" path = .entry group key) ∧
    (¬(group = "." ∨ group = "..") →
      sentPath (entryPath (normalizeBasePath base) group ".") =
        entryPath (normalizeBasePath base) group "" ∧
      sentPath (entryPath (normalizeBasePath base) group "..") = normalizeBasePath base) ∧
    ((∀ c ∈ base.toList, Url.isPlain c = true) → ∀ (scheme authority : List Char),
      scheme = "http".toList ∨ scheme = "https".toList → Url.isAuthority authority = true →
      ∀ slashes : Nat,
      let peer := scheme ++ "://".toList ++ authority ++ List.replicate slashes '/'
      let url := entryUrl (.ofList peer) (normalizeBasePath base) group key
      url.utf8ByteSize ≤ maxUrlBytes →
      requestLine? url = some ("GET " ++ sentPath path ++ " HTTP/1.1") ∧
        receive "GET" path = .request "GET" path) := by
  intro path
  have hdots := exists_isDots_iff hbase group key
  refine ⟨hdots, fun hplain ↦ ?_, sentPath_dots hbase,
    fun hplain scheme authority hscheme hauthority ↦
      requestLine?_entryUrl hplain group key hscheme hauthority⟩
  have hnone : ∀ segment ∈ pathSegments path, Url.isDots segment = false := fun segment hmem ↦
    Bool.eq_false_iff.2 fun htrue ↦ hplain (hdots.1 ⟨segment, hmem, htrue⟩)
  have hkept := Url.removeDotSegments_eq hnone
  obtain ⟨tail, htail, -⟩ := exists_entryPath base group key
  refine ⟨hkept, sentPath_eq ⟨tail, htail⟩ hkept, fun serverBase happart ↦ ?_⟩
  rw [← happart.normalize]
  exact route_entryPath (slash_mem_normalizeBasePath base) group key

/-- A key with dots and slashes below a nested base path. -/
theorem paths_survive_iff_nested : Dotless "a/b" ∧
    pathSegments (entryPath (normalizeBasePath "a/b") ".g" "../k") =
      ["a".toList, "b".toList, ".g".toList, "..%2Fk".toList] ∧
    requestLine? (entryUrl "http://peer/" (normalizeBasePath "a/b") ".g" "../k") =
      some "GET /a/b/.g/..%2Fk HTTP/1.1" := by
  have hbase : Dotless "a/b" := by
    unfold Dotless
    decide +kernel
  have hplain : ∀ c ∈ "a/b".toList, Url.isPlain c = true :=
    List.all_eq_true.1 (by decide +kernel)
  have hpath : entryPath (normalizeBasePath "a/b") ".g" "../k" = "/a/b/.g/..%2Fk" := by
    decide +kernel
  obtain ⟨-, hsurvives, -, hline⟩ := paths_survive_iff hbase ".g" "../k"
  obtain ⟨-, hsent, -⟩ := hsurvives (by decide)
  have hrequest := (hline hplain "http".toList "peer".toList (.inl rfl)
    (Url.isAuthority_of_name (by decide) (by decide)) 1 (by decide +kernel)).1
  rw [hsent, hpath] at hrequest
  exact ⟨hbase, by decide +kernel, hrequest⟩

/-- A key of two dots is asked for by the base path, which names no group, and a key of one dot as
the empty key of its group. -/
theorem dot_keys_lost : Dotless "/_peercache/" ∧
    "..".toList ∈ pathSegments (entryPath "/_peercache/" "g" "..") ∧
    requestLine? (entryUrl "http://peer" "/_peercache/" "g" "..") =
      some "GET /_peercache/ HTTP/1.1" ∧
    (∀ group key, route "/_peercache/" "GET" "/_peercache/" ≠ .entry group key) ∧
    requestLine? (entryUrl "http://peer" "/_peercache/" "g" ".") =
      some "GET /_peercache/g/ HTTP/1.1" ∧
    route "/_peercache/" "GET" "/_peercache/g/" = .entry "g" "" := by
  have hbase : Dotless "/_peercache/" := by
    unfold Dotless
    decide +kernel
  have hplain : ∀ c ∈ "/_peercache/".toList, Url.isPlain c = true :=
    List.all_eq_true.1 (by decide +kernel)
  have hauthority : Url.isAuthority "peer".toList = true :=
    Url.isAuthority_of_name (by decide) (by decide)
  have hline (key : String) := requestLine?_entryUrl hplain "g" key (.inl rfl) hauthority 0
  have hsent : sentPath (entryPath "/_peercache/" "g" "..") = "/_peercache/" ∧
      sentPath (entryPath "/_peercache/" "g" ".") = "/_peercache/g/" := by
    decide +kernel
  have hrefused : route "/_peercache/" "GET" "/_peercache/" =
      .refused 400 "expected \x7bgroup\x7d/\x7bkey\x7d" := by
    decide +kernel
  refine ⟨hbase, by decide +kernel, ?_, ?_, ?_, by decide +kernel⟩
  · have hrequest := (hline ".." (by decide +kernel)).1
    rw [show normalizeBasePath "/_peercache/" = "/_peercache/" by decide +kernel, hsent.1]
      at hrequest
    exact hrequest
  · intro group key
    rw [hrefused]
    exact nofun
  · have hrequest := (hline "." (by decide +kernel)).1
    rw [show normalizeBasePath "/_peercache/" = "/_peercache/" by decide +kernel, hsent.2]
      at hrequest
    exact hrequest

end ReadThrough.Http
