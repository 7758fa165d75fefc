import Mathlib.Data.List.Forall2
import ReadThrough.Proofs.Tables
import ReadThrough.Settings.Reader

/-!
# Settings that are written and read back

Settings are written with all their fields, and a field that stands at its default may be left out
(`Abridges`). So a reader that takes its own defaults for what is missing must agree, field by
field, with the settings where nothing is given: `Abridges.field?_eq` is that argument for one
field, whatever it holds. Read `settings_survive` for the whole.
-/

namespace ReadThrough

/-! ## Fields that are left out -/

/-- Fields that are left of those written, in any order, when some are deleted. What is deleted is
written just as the standard writes it. -/
def Abridges (given written standard : List (String × Datum)) : Prop :=
  ∃ omitted : List String,
    (∀ name ∈ omitted, written.lookup name = standard.lookup name) ∧
    given.Perm (written.filter fun field ↦ field.1 ∉ omitted)

/-- What stands for the fields of a group that are left out. Nothing stands for its name. -/
def GroupSpec.standard : List (String × Datum) :=
  (GroupSpec.named "").fields.filter fun field ↦ field.1 ≠ "name"

/-- A tree is the settings of a group, some fields at their defaults left out. -/
def GroupSpec.Abridged (spec : GroupSpec) (tree : Datum) : Prop :=
  ∃ given, tree = .object given ∧ Abridges given spec.fields GroupSpec.standard

/-- A tree is the settings of a node, some fields of the node and of its groups at their defaults
left out. -/
def NodeSettings.Abridged (settings : NodeSettings) (tree : Datum) : Prop :=
  ∃ groups given, List.Forall₂ GroupSpec.Abridged settings.groups groups ∧
    tree = .object given ∧
    Abridges given (settings.fields groups) (NodeSettings.default.fields [])

/-- The names of the fields of an object. -/
def Datum.names : Datum → List String
  | .object fields => fields.map Prod.fst
  | _ => []

/-- The numbers of a group are words, and the number of its admission rule is one of 32 bits. -/
structure GroupSpec.Fits (spec : GroupSpec) : Prop where
  cacheBytes : spec.cacheBytes < UInt64.size
  hotRatio : spec.hotRatio < UInt64.size
  oneIn : ∀ n, spec.hotAdmission = .oneIn n → n < UInt32.size
  negativeTtl : ∀ ttl ∈ spec.negativeTtlMs, ttl < UInt64.size

/-- The numbers of a node and of its groups are words. -/
structure NodeSettings.Fits (settings : NodeSettings) : Prop where
  replicas : settings.replicas < UInt64.size
  peerTimeout : settings.peerTimeoutMs < UInt64.size
  requestTimeout : settings.requestTimeoutMs < UInt64.size
  groups : ∀ spec ∈ settings.groups, spec.Fits

namespace Abridges

variable {given written standard : List (String × Datum)} {name : String} {tree : Datum}

/-- Nothing need be left out. -/
theorem refl (written standard : List (String × Datum)) : Abridges written written standard :=
  ⟨[], by simp, by simp⟩

theorem mem (h : Abridges given written standard) {field : String × Datum}
    (hmem : field ∈ given) : field ∈ written := by
  obtain ⟨omitted, -, hperm⟩ := h
  exact (List.mem_filter.1 (hperm.mem_iff.1 hmem)).1

theorem distinct (h : Abridges given written standard) (hdistinct : (written.map Prod.fst).Nodup) :
    (given.map Prod.fst).Nodup := by
  obtain ⟨omitted, -, hperm⟩ := h
  exact (hperm.map Prod.fst).nodup_iff.2 (hdistinct.sublist (List.filter_sublist.map Prod.fst))

/-- A field that is not there stands in the standard as it was written. -/
theorem lookup_standard (h : Abridges given written standard)
    (hwritten : written.lookup name = some tree) (hnone : given.lookup name = none) :
    standard.lookup name = some tree := by
  obtain ⟨omitted, hstandard, hperm⟩ := h
  by_cases homitted : name ∈ omitted
  · rw [← hstandard name homitted, hwritten]
  · have hkept : (name, tree) ∈ given :=
      hperm.mem_iff.2 (List.mem_filter.2 ⟨mem_of_lookup hwritten, by simpa using homitted⟩)
    have hne := List.lookup_eq_none_iff.1 hnone _ hkept
    simp at hne

/-- A field reads as what was written for it, whether it is there or left out, if what the reader
takes for a missing field is what the standard writes. -/
theorem field?_eq {α : Type} {read : Datum → Option α} {a missing : α} {other : Datum}
    (h : Abridges given written standard) (hdistinct : (written.map Prod.fst).Nodup)
    (hwritten : written.lookup name = some tree) (hstandard : standard.lookup name = some other)
    (hread : read tree = some a) (hmissing : tree = other → a = missing) :
    Reader.field? given name missing read = some a := by
  unfold Reader.field?
  cases hlookup : given.lookup name with
  | none =>
      rw [h.lookup_standard hwritten hlookup] at hstandard
      rw [hmissing (Option.some.inj hstandard)]
  | some found =>
      have hmem := h.mem (mem_of_lookup hlookup)
      rw [lookup_of_mem hdistinct hmem] at hwritten
      cases hwritten
      exact hread

end Abridges

/-! ## Single values -/

section Values

variable {α : Type} {read : Datum → Option α} {write : α → Datum}

theorem natural?_natural {n limit : Nat} (h : n ≤ limit) :
    Datum.reader.natural? limit (.natural n) = some n := by
  simp [Datum.reader, Datum.natural, h]

theorem natural_inj {m n : Nat} (h : Datum.natural m = .natural n) : m = n :=
  Int.ofNat.inj (Datum.integer.inj h)

/-- A value that may be missing reads as it was written, unless its text is that of a missing
one. -/
theorem optional?_ofOption {value : Option α} (hread : ∀ a ∈ value, read (write a) = some a)
    (hnull : ∀ a, Datum.reader.given? (write a) = some (some (write a))) :
    Datum.reader.optional? read (.ofOption write value) = some value := by
  cases value with
  | none => rfl
  | some a => simp [Reader.optional?, Datum.ofOption, hnull, hread a rfl]

/-- Only a missing value is written as a null. -/
theorem eq_none_of_ofOption {value : Option α}
    (hnull : ∀ a, Datum.reader.given? (write a) = some (some (write a)))
    (h : Datum.ofOption write value = .ofOption write none) : value = none := by
  cases value with
  | none => rfl
  | some a =>
      have hgiven := hnull a
      rw [show write a = .null from h] at hgiven
      cases hgiven

/-- A list with an item that is refused is refused. -/
theorem listOf?_eq_none {items : List Datum} {tree : Datum} (hmem : tree ∈ items)
    (hrefused : read tree = none) : Datum.reader.listOf? read (.list items) = none := by
  show items.mapM read = none
  induction items with
  | nil => cases hmem
  | cons first rest ih =>
      rw [List.mapM_cons]
      rcases List.mem_cons.1 hmem with rfl | hmem
      · simp [hrefused]
      · simp [ih hmem]

/-- A list reads as the values that its items read as. -/
theorem listOf?_of_forall₂ {values : List α} {items : List Datum}
    (h : List.Forall₂ (fun a tree ↦ read tree = some a) values items) :
    Datum.reader.listOf? read (.list items) = some values := by
  show items.mapM read = some values
  induction h with
  | nil => rfl
  | cons hfirst hrest ih => simp [List.mapM_cons, hfirst, ih]

theorem listOf?_text (texts : List String) :
    Datum.reader.listOf? Datum.reader.text? (.list (texts.map .text)) = some texts := by
  refine listOf?_of_forall₂ (List.forall₂_map_right_iff.2 ?_)
  exact List.forall₂_same.2 fun text _ ↦ rfl

theorem Admission.read?_toDatum {rule : Admission} (h : ∀ n, rule = .oneIn n → n < UInt32.size) :
    Admission.read? Datum.reader rule.toDatum = some rule := by
  cases rule with
  | always => rfl
  | never => rfl
  | oneIn n =>
      have hle : n ≤ maxOneIn := Nat.le_sub_one_of_lt (h n rfl)
      show (Datum.reader.natural? maxOneIn (.natural n)).map Admission.oneIn = some (.oneIn n)
      rw [natural?_natural hle, Option.map_some]

theorem Admission.eq_always_of_toDatum {rule : Admission}
    (h : rule.toDatum = Admission.always.toDatum) : rule = .always := by
  cases rule <;> simp_all [Admission.toDatum]

/-- The fields of an object are found if their names are known and apart. -/
theorem object?_object {names : List String} {given : List (String × Datum)}
    (hknown : ∀ field ∈ given, field.1 ∈ names) (hdistinct : (given.map Prod.fst).Nodup) :
    Datum.reader.object? names (.object given) = some given := by
  have hall : (given.map Prod.fst).all (names.contains ·) := by
    simpa using fun name tree hmem ↦ hknown (name, tree) hmem
  show (if _ then _ else _) = _
  rw [if_pos ⟨hall, hdistinct⟩]

/-- The fields of an object that are found are all that it has, and their names are apart. -/
theorem of_object? {names : List String} {given fields : List (String × Datum)}
    (h : Datum.reader.object? names (.object given) = some fields) :
    fields = given ∧ (given.map Prod.fst).Nodup := by
  replace h : (if (given.map Prod.fst).all (names.contains ·) ∧ (given.map Prod.fst).Nodup then
    some given else none) = some fields := h
  split at h
  · next hall => exact ⟨(Option.some.inj h).symm, hall.2⟩
  · cases h

/-- An object with a field of an unknown name is refused. -/
theorem object?_of_unknown {names : List String} {given : List (String × Datum)}
    {field : String × Datum} (hmem : field ∈ given) (hunknown : field.1 ∉ names) :
    Datum.reader.object? names (.object given) = none := by
  show (if _ then _ else _) = _
  refine if_neg fun hall ↦ hunknown ?_
  simpa using List.all_eq_true.1 hall.1 field.1 (List.mem_map_of_mem hmem)

end Values

/-! ## Groups and nodes -/

theorem le_maxNumber {n : Nat} (h : n < UInt64.size) : n ≤ maxNumber :=
  Nat.le_sub_one_of_lt h

namespace GroupSpec

variable {spec : GroupSpec} {tree : Datum}

theorem names_fields (spec : GroupSpec) : spec.fields.map Prod.fst = fieldNames :=
  rfl

theorem nodup_fields (spec : GroupSpec) : (spec.fields.map Prod.fst).Nodup := by
  rw [names_fields]
  decide

/-- A group reads as it was written, fields at their defaults left out or not. -/
theorem Abridged.read? (h : spec.Abridged tree) (hfits : spec.Fits) :
    GroupSpec.read? Datum.reader tree = some spec := by
  obtain ⟨given, rfl, h⟩ := h
  have hdistinct := spec.nodup_fields
  have hobject : Datum.reader.object? fieldNames (.object given) = some given :=
    object?_object
      (fun field hmem ↦ spec.names_fields ▸ List.mem_map_of_mem (h.mem hmem))
      (h.distinct hdistinct)
  have hname : given.lookup "name" = some (.text spec.name) := by
    cases hlookup : given.lookup "name" with
    | none =>
        have hmissing : standard.lookup "name" = some (.text spec.name) :=
          h.lookup_standard rfl hlookup
        cases hmissing
    | some tree =>
        have hwritten := lookup_of_mem hdistinct (h.mem (mem_of_lookup hlookup))
        exact hwritten.symm.trans rfl
  have hcacheBytes : Reader.field? given "cache_bytes" defaultCacheBytes
      (Datum.reader.natural? maxNumber) = some spec.cacheBytes :=
    h.field?_eq hdistinct rfl rfl (natural?_natural (le_maxNumber hfits.cacheBytes)) natural_inj
  have hhotRatio : Reader.field? given "hot_ratio" defaultHotRatio
      (Datum.reader.natural? maxNumber) = some spec.hotRatio :=
    h.field?_eq hdistinct rfl rfl (natural?_natural (le_maxNumber hfits.hotRatio)) natural_inj
  have hhotAdmission : Reader.field? given "hot_admission" .always
      (Admission.read? Datum.reader) = some spec.hotAdmission :=
    h.field?_eq hdistinct rfl rfl (Admission.read?_toDatum hfits.oneIn) Admission.eq_always_of_toDatum
  have hfallback : Reader.field? given "fallback_to_local" true Datum.reader.bool? =
      some spec.fallbackToLocal :=
    h.field?_eq hdistinct rfl rfl rfl Datum.bool.inj
  have hnegativeTtl : Reader.field? given "negative_ttl_ms" none
      (Datum.reader.optional? (Datum.reader.natural? maxNumber)) = some spec.negativeTtlMs :=
    h.field?_eq hdistinct rfl rfl
      (optional?_ofOption
        (fun ttl hmem ↦ natural?_natural (le_maxNumber (hfits.negativeTtl ttl hmem))) fun _ ↦ rfl)
      (eq_none_of_ofOption fun _ ↦ rfl)
  have hdataDir : Reader.field? given "data_dir" none
      (Datum.reader.optional? Datum.reader.text?) = some spec.dataDir :=
    h.field?_eq hdistinct rfl rfl (optional?_ofOption (fun _ _ ↦ rfl) fun _ ↦ rfl)
      (eq_none_of_ofOption fun _ ↦ rfl)
  have htext : Datum.reader.text? (.text spec.name) = some spec.name := rfl
  simp [GroupSpec.read?, hobject, hname, htext, hcacheBytes, hhotRatio, hhotAdmission, hfallback,
    hnegativeTtl, hdataDir]

/-- A group with a field of an unknown name is refused. -/
theorem read?_of_unknown {given : List (String × Datum)} {field : String × Datum}
    (hmem : field ∈ given) (hunknown : field.1 ∉ fieldNames) :
    GroupSpec.read? Datum.reader (.object given) = none := by
  simp [GroupSpec.read?, object?_of_unknown hmem hunknown]

end GroupSpec

namespace NodeSettings

variable {settings : NodeSettings} {tree : Datum}

theorem names_fields (settings : NodeSettings) (groups : List Datum) :
    (settings.fields groups).map Prod.fst = fieldNames :=
  rfl

theorem nodup_fields (settings : NodeSettings) (groups : List Datum) :
    ((settings.fields groups).map Prod.fst).Nodup := by
  rw [names_fields]
  decide

/-- A node reads as it was written, fields at their defaults left out or not. -/
theorem Abridged.read? (h : settings.Abridged tree) (hfits : settings.Fits) :
    NodeSettings.read? Datum.reader tree = some settings := by
  obtain ⟨groups, given, hgroups, rfl, h⟩ := h
  have hdistinct := settings.nodup_fields groups
  have hobject : Datum.reader.object? fieldNames (.object given) = some given :=
    object?_object
      (fun field hmem ↦ settings.names_fields groups ▸ List.mem_map_of_mem (h.mem hmem))
      (h.distinct hdistinct)
  have hselfUrl : Reader.field? given "self_url" "" Datum.reader.text? = some settings.selfUrl :=
    h.field?_eq hdistinct rfl rfl rfl Datum.text.inj
  have hpeers : Reader.field? given "peers" [] (Datum.reader.listOf? Datum.reader.text?) =
      some settings.peers :=
    h.field?_eq hdistinct rfl rfl (listOf?_text settings.peers)
      fun hnone ↦ List.map_eq_nil_iff.1 (Datum.list.inj hnone)
  have hlisten : Reader.field? given "listen" defaultListen Datum.reader.text? =
      some settings.listen :=
    h.field?_eq hdistinct rfl rfl rfl Datum.text.inj
  have hbasePath : Reader.field? given "base_path" Http.defaultBasePath Datum.reader.text? =
      some settings.basePath :=
    h.field?_eq hdistinct rfl rfl rfl Datum.text.inj
  have hreplicas : Reader.field? given "replicas" Ring.defaultReplicas
      (Datum.reader.natural? maxNumber) = some settings.replicas :=
    h.field?_eq hdistinct rfl rfl (natural?_natural (le_maxNumber hfits.replicas)) natural_inj
  have hpeerTimeout : Reader.field? given "peer_timeout_ms" defaultPeerTimeoutMs
      (Datum.reader.natural? maxNumber) = some settings.peerTimeoutMs :=
    h.field?_eq hdistinct rfl rfl (natural?_natural (le_maxNumber hfits.peerTimeout)) natural_inj
  have hrequestTimeout : Reader.field? given "request_timeout_ms" defaultRequestTimeoutMs
      (Datum.reader.natural? maxNumber) = some settings.requestTimeoutMs :=
    h.field?_eq hdistinct rfl rfl (natural?_natural (le_maxNumber hfits.requestTimeout))
      natural_inj
  have hgroupsRead : Reader.field? given "groups" []
      (Datum.reader.listOf? (GroupSpec.read? Datum.reader)) = some settings.groups := by
    refine h.field?_eq hdistinct rfl rfl (listOf?_of_forall₂ ?_) fun hnone ↦ ?_
    · have hboth := (List.forall₂_and_left settings.groups groups).2 ⟨hfits.groups, hgroups⟩
      exact hboth.imp fun spec tree hspec ↦ hspec.2.read? hspec.1
    · obtain rfl := Datum.list.inj hnone
      exact List.forall₂_nil_right_iff.1 hgroups
  simp [NodeSettings.read?, hobject, hselfUrl, hpeers, hlisten, hbasePath, hreplicas,
    hpeerTimeout, hrequestTimeout, hgroupsRead]

/-- A node with a field of an unknown name is refused. -/
theorem read?_of_unknown {given : List (String × Datum)} {field : String × Datum}
    (hmem : field ∈ given) (hunknown : field.1 ∉ fieldNames) :
    NodeSettings.read? Datum.reader (.object given) = none := by
  simp [NodeSettings.read?, object?_of_unknown hmem hunknown]

/-- A node with a group that is refused is refused. -/
theorem read?_of_group {given : List (String × Datum)} {groups : List Datum}
    (hgroups : ("groups", .list groups) ∈ given) (hmem : tree ∈ groups)
    (hrefused : GroupSpec.read? Datum.reader tree = none) :
    NodeSettings.read? Datum.reader (.object given) = none := by
  cases hobject : Datum.reader.object? fieldNames (.object given) with
  | none => simp [NodeSettings.read?, hobject]
  | some fields =>
      obtain ⟨rfl, hdistinct⟩ := of_object? hobject
      have hlookup := lookup_of_mem hdistinct hgroups
      have hfield : Reader.field? fields "groups" []
          (Datum.reader.listOf? (GroupSpec.read? Datum.reader)) = none := by
        simp only [Reader.field?, hlookup]
        exact listOf?_eq_none hmem hrefused
      simp [NodeSettings.read?, hobject, hfield]

/-- Settings survive being written and read back. With numbers that are words, the settings of a
node read as themselves from the object written for them, and also from that object without any
fields of the node and its groups that stand at their defaults. An object with a field of any other
name, or with a group that has one, is refused. -/
theorem settings_survive (settings : NodeSettings) (hfits : settings.Fits) :
    NodeSettings.read? Datum.reader settings.toDatum = some settings ∧
    (∀ tree, settings.Abridged tree →
      NodeSettings.read? Datum.reader tree = some settings) ∧
    (∀ fields field, field ∈ fields → field.1 ∉ settings.toDatum.names →
      NodeSettings.read? Datum.reader (.object fields) = none) ∧
    ∀ (spec : GroupSpec) (fields : List (String × Datum)) (groups : List Datum)
      (group : List (String × Datum)) (field : String × Datum),
      ("groups", .list groups) ∈ fields → .object group ∈ groups → field ∈ group →
      field.1 ∉ spec.toDatum.names →
      NodeSettings.read? Datum.reader (.object fields) = none := by
  have hwritten : settings.Abridged settings.toDatum := by
    refine ⟨_, _, List.forall₂_map_right_iff.2 ?_, rfl, .refl _ _⟩
    exact List.forall₂_same.2 fun spec _ ↦ ⟨_, rfl, .refl _ _⟩
  refine ⟨hwritten.read? hfits, fun tree h ↦ h.read? hfits, ?_, ?_⟩
  · exact fun fields field hmem hunknown ↦ read?_of_unknown hmem hunknown
  · intro spec fields groups group field hgroups hgroup hmem hunknown
    exact read?_of_group hgroups hgroup (GroupSpec.read?_of_unknown hmem hunknown)

/-- A group with some fields that are not at their defaults. -/
def assets : GroupSpec :=
  { GroupSpec.named "assets" with
    hotAdmission := .oneIn 4, negativeTtlMs := some 500, dataDir := some "/srv/assets" }

/-- It is read from those fields and its name, among a group of which only the name is given, and a
letter too few in the name of a field is noticed. -/
theorem settings_survive_assets :
    NodeSettings.read? Datum.reader (.object
      [("self_url", .text "http://10.0.0.1:8080"),
        ("groups", .list
          [.object
            [("name", .text "assets"), ("hot_admission", .object [("one_in", .natural 4)]),
              ("negative_ttl_ms", .natural 500), ("data_dir", .text "/srv/assets")],
            .object [("name", .text "users")]])]) =
      some { default with selfUrl := "http://10.0.0.1:8080", groups := [assets, .named "users"] } ∧
    NodeSettings.read? Datum.reader (.object
      [("self_url", .text "http://10.0.0.1:8080"), ("replica", .natural 3)]) = none := by
  have hfits : Fits { default with
      selfUrl := "http://10.0.0.1:8080", groups := [assets, .named "users"] } := by
    refine ⟨by decide, by decide, by decide, ?_⟩
    simp only [List.forall_mem_cons]
    refine ⟨⟨by decide, by decide, ?_, ?_⟩, ⟨by decide, by decide, ?_, ?_⟩, by simp⟩
    · rintro n ⟨⟩
      decide
    · rintro ttl ⟨⟩
      decide
    · rintro n ⟨⟩
    · rintro ttl ⟨⟩
  obtain ⟨-, habridged, hunknown, -⟩ := settings_survive _ hfits
  have hassets : assets.Abridged (.object
      [("name", .text "assets"), ("hot_admission", .object [("one_in", .natural 4)]),
        ("negative_ttl_ms", .natural 500), ("data_dir", .text "/srv/assets")]) := by
    refine ⟨_, rfl, ["cache_bytes", "hot_ratio", "fallback_to_local"], ?_, .of_eq rfl⟩
    simp only [List.forall_mem_cons]
    exact ⟨rfl, rfl, rfl, by simp⟩
  have husers : (GroupSpec.named "users").Abridged (.object [("name", .text "users")]) := by
    refine ⟨_, rfl, ["cache_bytes", "hot_ratio", "hot_admission", "fallback_to_local",
      "negative_ttl_ms", "data_dir"], ?_, .of_eq rfl⟩
    simp only [List.forall_mem_cons]
    exact ⟨rfl, rfl, rfl, rfl, rfl, rfl, by simp⟩
  refine ⟨habridged _ ⟨_, _, .cons hassets (.cons husers .nil), rfl, ?_⟩, ?_⟩
  · refine ⟨["peers", "listen", "base_path", "replicas", "peer_timeout_ms",
      "request_timeout_ms"], ?_, .of_eq rfl⟩
    simp only [List.forall_mem_cons]
    exact ⟨rfl, rfl, rfl, rfl, rfl, rfl, by simp⟩
  · exact hunknown _ ("replica", .natural 3) (by simp) (by decide)

end NodeSettings

end ReadThrough
