import ReadThrough.Files.Loader
import ReadThrough.Proofs.Text.Segments

/-!
# Keys that stay below the root

A loader accepts a key by its components and reads the path that the key makes with the root. Both
come from the same segments: a key of names only is neither absolute nor leads up anywhere
(`accepted_iff`), and the components of the path are those of the root with the names of the key
below them (`components_join`). So nothing takes the path back above the root, which is what the
main statement says, `confined`.
-/

namespace ReadThrough

namespace Files

/-! ## Lexical normal forms -/

/-- Follow one more component, the place so far being given in reverse. Two dots take back the name
before them; above the root directory there is nothing, and where no name is left they stay. -/
def follow (above : List Component) : Component → List Component
  | .root => [.root]
  | .current => above
  | .name text => .name text :: above
  | .parent =>
      match above with
      | .name _ :: rest => rest
      | .root :: rest => .root :: rest
      | _ => .parent :: above

/-- The lexical normal form of a path: where its components lead, as far as can be told without
looking at any directory. -/
def lexical (path : List Char) : List Component :=
  ((components path).foldl follow []).reverse

theorem foldl_follow_names (names : List (List Char)) (above : List Component) :
    (names.map Component.name).foldl follow above =
      (names.map Component.name).reverse ++ above := by
  induction names generalizing above with
  | nil => rfl
  | cons text rest ih =>
      rw [List.map_cons, List.foldl_cons, ih]
      simp [follow]

/-- Names at the end of a path lead below what comes before them. -/
theorem lexical_append {path base : List Char} {names : List (List Char)}
    (h : components path = components base ++ names.map .name) :
    lexical path = lexical base ++ names.map .name := by
  rw [lexical, h, List.foldl_append, foldl_follow_names, List.reverse_append, List.reverse_reverse]
  rfl

/-! ## Components -/

/-- What the segments after the first one stand for are names, unless two dots are among them. -/
theorem all_isName_filterMap (segments : List (List Char)) :
    (segments.filterMap component?).all Component.isName = true ↔ ['.', '.'] ∉ segments := by
  induction segments with
  | nil => simp
  | cons segment rest ih =>
      rw [List.mem_cons, not_or, ← ih, List.filterMap_cons]
      by_cases hskipped : segment = [] ∨ segment = ['.']
      · have hne : ['.', '.'] ≠ segment := by
          rcases hskipped with rfl | rfl <;> decide
        simp [component?, if_pos hskipped, hne]
      · by_cases hparent : segment = ['.', '.']
        · simp [component?, hparent, Component.isName]
        · simp [component?, if_neg hskipped, hparent, Ne.symm hparent, Component.isName]

/-- Segments without two dots stand for the names among them. -/
theorem filterMap_component? {segments : List (List Char)} (h : ['.', '.'] ∉ segments) :
    segments.filterMap component? =
      (segments.filter fun s ↦ s ≠ [] ∧ s ≠ ['.']).map .name := by
  induction segments with
  | nil => rfl
  | cons segment rest ih =>
      rw [List.mem_cons, not_or] at h
      rw [List.filterMap_cons, ih h.2]
      by_cases hskipped : segment = [] ∨ segment = ['.']
      · have hdrop : ¬(segment ≠ [] ∧ segment ≠ ['.']) := fun hkeep ↦
          hskipped.elim hkeep.1 hkeep.2
        simp only [component?, if_pos hskipped, List.filter_cons, decide_eq_true_eq, if_neg hdrop]
      · have hkeep : segment ≠ [] ∧ segment ≠ ['.'] := not_or.1 hskipped
        simp only [component?, if_neg hskipped, if_neg (Ne.symm h.1), List.filter_cons,
          decide_eq_true_eq, if_pos hkeep, List.map_cons]

/-- Behind a slash the first segment stands for what any other one does. -/
theorem components_append (base below : List Char) :
    components (base ++ '/' :: below) =
      components (base ++ ['/']) ++ (Text.segments below).filterMap component? := by
  obtain ⟨first, others, hbase⟩ := List.exists_cons_of_ne_nil (Text.segments_ne_nil base)
  have hpath : ∀ rest : List Char, base ++ '/' :: rest ≠ [] := by simp
  have hfirst : firstComponent? (base ++ '/' :: below) first =
      firstComponent? (base ++ ['/']) first := by
    simp only [firstComponent?, if_neg (hpath _)]
  simp only [components, Text.segments_append, hbase, List.cons_append, hfirst]
  simp [Text.segments, component?]

/-- A slash at the end of a path leads nowhere. -/
theorem components_slash {base : List Char} (h : base ≠ []) :
    components (base ++ ['/']) = components base := by
  obtain ⟨first, others, hbase⟩ := List.exists_cons_of_ne_nil (Text.segments_ne_nil base)
  have hfirst : firstComponent? (base ++ ['/']) first = firstComponent? base first := by
    simp [firstComponent?, h]
  simp only [components, Text.segments_append, hbase, List.cons_append, hfirst]
  simp [Text.segments, component?]

/-- The first segment of a path is empty if the path is, or if it is absolute. -/
theorem head?_segments_eq_nil {path : List Char} (h : path ≠ []) :
    (Text.segments path).head? = some [] ↔ path.head? = some '/' := by
  cases path with
  | nil => exact absurd rfl h
  | cons c rest =>
      by_cases hslash : c = '/'
      · simp [hslash, Text.segments_slash]
      · obtain ⟨segment, others, -, hcons⟩ := Text.segments_cons hslash rest
        simp [hcons, hslash]

variable {key : List Char}

/-- A path whose first segment is a name stands for what its segments stand for, one by one. -/
theorem components_eq_filterMap (hkey : key ≠ []) (habsolute : key.head? ≠ some '/')
    (hcurrent : (Text.segments key).head? ≠ some ['.']) :
    components key = (Text.segments key).filterMap component? := by
  replace habsolute : (Text.segments key).head? ≠ some [] := fun hnil ↦
    habsolute ((head?_segments_eq_nil hkey).1 hnil)
  obtain ⟨first, others, hsegments⟩ := List.exists_cons_of_ne_nil (Text.segments_ne_nil key)
  rw [hsegments, List.head?_cons, Ne, Option.some.injEq] at habsolute hcurrent
  simp only [components, hsegments, firstComponent?, if_neg habsolute, if_neg hcurrent,
    List.filterMap_cons]
  cases component? first <;> rfl

/-- A path is made of names alone, if it is there, is relative, and neither begins with a single dot
nor has two dots for a segment. -/
theorem accepted_iff :
    key ≠ [] ∧ (components key).all Component.isName = true ↔
      key ≠ [] ∧ key.head? ≠ some '/' ∧ (Text.segments key).head? ≠ some ['.'] ∧
        ['.', '.'] ∉ Text.segments key := by
  refine and_congr_right fun hkey ↦ ?_
  constructor
  · intro hall
    obtain ⟨first, others, hsegments⟩ := List.exists_cons_of_ne_nil (Text.segments_ne_nil key)
    have habsolute : key.head? ≠ some '/' := by
      intro hslash
      rw [← head?_segments_eq_nil hkey, hsegments, List.head?_cons, Option.some.injEq] at hslash
      simp [components, hsegments, firstComponent?, hslash, hkey, Component.isName] at hall
    have hcurrent : (Text.segments key).head? ≠ some ['.'] := by
      intro hdot
      rw [hsegments, List.head?_cons, Option.some.injEq] at hdot
      simp [components, hsegments, firstComponent?, hdot, Component.isName] at hall
    rw [components_eq_filterMap hkey habsolute hcurrent, all_isName_filterMap] at hall
    exact ⟨habsolute, hcurrent, hall⟩
  · rintro ⟨habsolute, hcurrent, hparent⟩
    rw [components_eq_filterMap hkey habsolute hcurrent]
    exact (all_isName_filterMap _).2 hparent

/-- The components of a path that is put below another one are those of the other one with its own
names below them. -/
theorem components_join (base : List Char) (hkey : key ≠ []) (habsolute : key.head? ≠ some '/')
    (hcurrent : (Text.segments key).head? ≠ some ['.']) :
    components (join base key) =
      components base ++ (Text.segments key).filterMap component? := by
  rw [join, if_neg habsolute]
  rcases List.eq_nil_or_concat base with rfl | ⟨lead, last, rfl⟩
  · exact components_eq_filterMap hkey habsolute hcurrent
  · rw [List.concat_eq_append, List.getLast?_concat]
    by_cases hslash : last = '/'
    · subst hslash
      rw [List.append_assoc]
      exact components_append lead key
    · have hne : lead ++ [last] ≠ [] := List.append_ne_nil_of_right_ne_nil _ (List.cons_ne_nil _ _)
      split
      · next heq => cases heq
      · next heq => exact absurd (Option.some.inj heq) hslash
      · rw [components_append, components_slash hne]

/-- A relative path that is put below another one follows it, behind a slash where there is none. -/
theorem exists_join (base : List Char) (habsolute : key.head? ≠ some '/') :
    ∃ below, join base key = base ++ below ∧ (below = key ∨ below = '/' :: key) := by
  rw [join, if_neg habsolute]
  split
  · next hnone =>
    rw [List.getLast?_eq_none_iff.1 hnone]
    exact ⟨key, rfl, .inl rfl⟩
  · exact ⟨key, rfl, .inl rfl⟩
  · exact ⟨'/' :: key, rfl, .inr rfl⟩

/-- A path without two dots has a name, unless it leads nowhere. -/
theorem names_ne_nil (hkey : key ≠ []) (habsolute : key.head? ≠ some '/')
    (hcurrent : (Text.segments key).head? ≠ some ['.']) :
    ((Text.segments key).filter fun s ↦ s ≠ [] ∧ s ≠ ['.']) ≠ [] := by
  obtain ⟨first, others, hsegments⟩ := List.exists_cons_of_ne_nil (Text.segments_ne_nil key)
  have hfirst : first ≠ [] ∧ first ≠ ['.'] := by
    constructor
    · rintro rfl
      exact habsolute ((head?_segments_eq_nil hkey).1 (hsegments ▸ rfl))
    · rintro rfl
      exact hcurrent (hsegments ▸ rfl)
  rw [hsegments, List.filter_cons, if_pos (decide_eq_true hfirst)]
  exact List.cons_ne_nil _ _

end Files

namespace FileLoader

open Files

/-- A loader takes exactly those keys that are not empty, do not begin with a slash, do not have a
single dot for their first segment, and nowhere have two dots for a segment. The path that such a
key resolves to is the root followed by segments without two dots; its components are those of the
root and below them the names of the key, of which there is one at least; and so its lexical normal
form is that of the root with these names below it, which is strictly below the root. Any other key
has no value, whatever files there are. -/
theorem confined (loader : FileLoader) (key : String) :
    ((loader.resolve? key).isSome = true ↔ key ≠ "" ∧ key.toList.head? ≠ some '/' ∧
      (Text.segments key.toList).head? ≠ some ['.'] ∧
      ['.', '.'] ∉ Text.segments key.toList) ∧
    (∀ path, loader.resolve? key = some path →
      (∃ below, path = loader.root.toList ++ below ∧ ['.', '.'] ∉ Text.segments below) ∧
      components path = components loader.root.toList ++ (Tree.names key).map .name ∧
      lexical path = lexical loader.root.toList ++ (Tree.names key).map .name ∧
      Tree.names key ≠ [] ∧ ['.', '.'] ∉ Tree.names key) ∧
    (loader.resolve? key = none → ∀ (tree : Tree) (now : Millis),
      { loader with tree }.load now key = .error .notFound) := by
  have hempty : key ≠ "" ↔ key.toList ≠ [] := not_congr String.toList_eq_nil_iff.symm
  refine ⟨?_, fun path hpath ↦ ?_, fun hnone tree now ↦ ?_⟩
  · rw [resolve?, Option.isSome_ite, hempty]
    exact accepted_iff
  · obtain ⟨haccepted, rfl⟩ : (key ≠ "" ∧ (components key.toList).all Component.isName) ∧
        join loader.root.toList key.toList = path := by
      rw [resolve?] at hpath
      split at hpath
      · next haccepted => exact ⟨haccepted, Option.some.inj hpath⟩
      · cases hpath
    rw [hempty] at haccepted
    obtain ⟨hkey, habsolute, hcurrent, hparent⟩ := accepted_iff.1 haccepted
    have hcomponents := components_join loader.root.toList hkey habsolute hcurrent
    rw [filterMap_component? hparent] at hcomponents
    refine ⟨?_, hcomponents, lexical_append hcomponents, names_ne_nil hkey habsolute hcurrent,
      fun hmem ↦ hparent (List.mem_filter.1 hmem).1⟩
    obtain ⟨below, hjoin, rfl | rfl⟩ := exists_join loader.root.toList habsolute
    · exact ⟨_, hjoin, hparent⟩
    · refine ⟨_, hjoin, ?_⟩
      rw [Text.segments_slash, List.mem_cons, not_or]
      exact ⟨by decide, hparent⟩
  · rw [load, show resolve? { loader with tree } key = none from hnone]

/-- Names that begin with two dots, empty segments and a single dot inside of a key. -/
example : resolve? ⟨.empty, "r/..", none⟩ "a//./..b/" = some "r/../a//./..b/".toList ∧
    lexical "r/../a//./..b/".toList = [.name ['a'], .name ['.', '.', 'b']] := by
  decide +kernel

end FileLoader

end ReadThrough
