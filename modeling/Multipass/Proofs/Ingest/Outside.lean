import Multipass.Proofs.Files.LinkFree
import Multipass.Proofs.Files.Outside
import Multipass.Proofs.Ingest.Naming

/-!
# What is left out of a scan

Two trees that differ only below directories that a scan leaves out are scanned alike, as long as
what links lead to is alike. A scan can still end early below such a directory: where links are
followed, or at a directory that may not be read.

Main statement: `scan_outside`.
-/

namespace Multipass.Ingest

open FileTree

/-- Holds of the names of a directory that a scan of two trees leaves out: it has a name that is
never scanned, or all files that are found below it are excluded. -/
def LeftOut (t t' : FileTree) (cfg : IngestConfig) (names : List String) : Prop :=
  (∃ front, ∃ name ∈ standardNames, names = front ++ [name]) ∨
    ∀ more location content executable, more ≠ [] →
      (walkOf t cfg).Reaches (names ++ more) location (.file content executable) ∨
        (walkOf t' cfg).Reaches (names ++ more) location (.file content executable) →
      ∃ glob ∈ cfg.excludeGlobs, MatchedBy (keyOf (names ++ more)) glob

/-- The path of the sidecar of a file. -/
def sidecarPath (cfg : IngestConfig) (names : List String) : String :=
  names.foldl Path.join cfg.root ++ cfg.parsedSuffix

/-- Holds of the names of a file whose sidecar may be elsewhere than in the directory of the file:
behind a link, or behind a suffix that goes on to other directories. -/
def SidecarElsewhere (t : FileTree) (cfg : IngestConfig) (names : List String) : Prop :=
  names = [] ∨ '/' ∈ cfg.parsedSuffix.toList ∨
    ∃ front name location es target, names = front ++ [name] ∧
      (walkOf t cfg).Reaches front location (.directory es) ∧
      (name ++ cfg.parsedSuffix, .link target) ∈ es

/-- Holds of two trees that differ below the root of a scan at most in what is below directories
that the scan leaves out. -/
structure DifferInside (t t' : FileTree) (cfg : IngestConfig) : Prop where
  proper : t.top.Proper
  proper' : t'.top.Proper
  root : ∀ follow, Walk.LeadsAlike (LeftOut t t' cfg) []
    (t.resolve cfg.root follow) (t'.resolve cfg.root follow)

/-- Holds of two trees that also have alike what a scan comes to elsewhere behind links. -/
structure AlikeOutside (t t' : FileTree) (cfg : IngestConfig) : Prop
    extends DifferInside t t' cfg where
  links : cfg.followSymlinks = true → ∀ names location target,
    (walkOf t cfg).Meets names location (.link target) → Walk.Open (LeftOut t t' cfg) names →
      Walk.LeadsAlike (LeftOut t t' cfg) names (t.resolve ((walkOf t cfg).pathOf names) true)
        (t'.resolve ((walkOf t cfg).pathOf names) true)
  sidecars : ∀ names location content executable,
    (walkOf t cfg).Reaches names location (.file content executable) →
      Selects cfg (keyOf names) → SidecarElsewhere t cfg names →
        t.read? (sidecarPath cfg names) = t'.read? (sidecarPath cfg names)

variable {t t' : FileTree} {cfg : IngestConfig} {f : Filters} {names front more : List String}
  {location : Location} {content : List UInt8} {executable : Bool}

/-- No file below a directory that is left out is selected. -/
lemma LeftOut.not_selects (left : LeftOut t t' cfg front) (full : more ≠ [])
    (reaches : (walkOf t cfg).Reaches (front ++ more) location (.file content executable) ∨
      (walkOf t' cfg).Reaches (front ++ more) location (.file content executable)) :
    ¬Selects cfg (keyOf (front ++ more)) := by
  intro selected
  rcases left with ⟨front, name, standard, rfl⟩ | excluded
  · refine selected.not_standard name standard ?_
    rw [List.append_assoc]
    exact matches_below (standard_plain standard) full
  · obtain ⟨glob, mem, found⟩ := excluded more location content executable full reaches
    exact selected.not_excluded glob mem found

/-- A selected file is not below a directory that is left out. -/
lemma open_of_selects (selected : Selects cfg (keyOf names))
    (reaches : (walkOf t cfg).Reaches names location (.file content executable)) :
    Walk.Open (LeftOut t t' cfg) names := by
  rintro front more rfl full left
  exact left.not_selects full (.inl reaches) selected

lemma drops (ok : filters cfg = .ok f) :
    (walkOf t cfg).Drops (LeftOut t t' cfg) (fun names => f.takes (keyOf names)) := by
  intro front more location content executable left full reaches
  rw [← Bool.not_eq_true, filters_iff ok]
  exact left.not_selects full (.inl reaches)

lemma drops' (ok : filters cfg = .ok f) :
    ((walkOf t cfg).through t').Drops (LeftOut t t' cfg) (fun names => f.takes (keyOf names)) := by
  intro front more location content executable left full reaches
  rw [← Bool.not_eq_true, filters_iff ok]
  exact left.not_selects full (.inr reaches)

lemma AlikeOutside.walks (alike : AlikeOutside t t' cfg) :
    (walkOf t cfg).Alike t' (LeftOut t t' cfg) :=
  ⟨alike.proper, alike.proper', alike.root, alike.links⟩

/-- The sidecar of a selected file is read as the same in both trees. -/
lemma AlikeOutside.read? (alike : AlikeOutside t t' cfg)
    (reaches : (walkOf t cfg).Reaches names location (.file content executable))
    (selected : Selects cfg (keyOf names)) :
    t.read? (sidecarPath cfg names) = t'.read? (sidecarPath cfg names) := by
  by_cases elsewhere : SidecarElsewhere t cfg names
  · exact alike.sidecars names location content executable reaches selected elsewhere
  · have outside : Walk.Open (LeftOut t t' cfg) names := open_of_selects selected reaches
    simp only [SidecarElsewhere, not_or] at elsewhere
    obtain ⟨full, plain, own⟩ := elsewhere
    obtain ⟨front, name, rfl⟩ := List.eq_nil_or_concat names |>.resolve_left full
    rw [List.concat_eq_append] at *
    obtain ⟨outside, free⟩ := outside.front
    obtain ⟨location', es, here⟩ := reaches.front
    have proper := reaches.isName alike.proper name (by simp)
    have path : sidecarPath cfg (front ++ [name]) =
        Path.join ((walkOf t cfg).pathOf front) (name ++ cfg.parsedSuffix) := by
      rw [Path.join_append proper, ← Walk.pathOf_append_singleton]
      rfl
    rw [path]
    refine alike.walks.read?_entry here outside free (proper.append plain) fun target mem => ?_
    exact own ⟨front, name, location', es, target, rfl, here, mem⟩

/-- A selected file has the same record in both trees. -/
lemma AlikeOutside.record? (alike : AlikeOutside t t' cfg) (ok : filters cfg = .ok f)
    {found : FoundFile} (taken : f.takes (keyOf found.names) = true)
    (reaches : (walkOf t cfg).Reaches found.names location (.file found.content executable)) :
    record? t cfg f found = record? t' cfg f found := by
  have same := alike.read? reaches ((filters_iff ok).1 taken)
  rw [sidecarPath] at same
  simp only [Ingest.record?, sidecar?, same]

lemma filterMap_record? (t : FileTree) (cfg : IngestConfig) (f : Filters)
    (files : List FoundFile) :
    files.filterMap (record? t cfg f) =
      (files.filter fun found => f.takes (keyOf found.names)).filterMap (record? t cfg f) := by
  rw [List.filterMap_filter]
  refine List.filterMap_congr fun found _ => ?_
  split
  · rfl
  · next left =>
    rw [Ingest.record?]
    simp [left]

/-- Walks that find the same selected files give the same records. -/
lemma AlikeOutside.records (alike : AlikeOutside t t' cfg) (ok : filters cfg = .ok f)
    {files files' : List FoundFile}
    (reached : ∀ found ∈ files, ∃ location executable,
      (walkOf t cfg).Reaches found.names location (.file found.content executable))
    (same : files.filter (fun found => f.takes (keyOf found.names)) =
      files'.filter (fun found => f.takes (keyOf found.names))) :
    files.filterMap (Ingest.record? t cfg f) = files'.filterMap (Ingest.record? t' cfg f) := by
  rw [filterMap_record? t, filterMap_record? t', ← same]
  refine List.filterMap_congr fun found mem => ?_
  obtain ⟨mem, taken⟩ := List.mem_filter.1 mem
  obtain ⟨location, executable, reaches⟩ := reached found mem
  exact alike.record? ok taken reaches

/-- What a scan comes to below a root that is there, with filters. -/
lemma scan_of_walk (there : t.exists? cfg.root = true) (ok : filters cfg = .ok f) :
    scan t cfg =
      match t.files cfg.root cfg.followSymlinks with
      | .error fault => .error (.walk fault)
      | .ok found => .ok (byPath (found.filterMap (Ingest.record? t cfg f))) := by
  rw [scan, there, ok]
  rfl

/-- The root is there in both trees or in none. -/
lemma DifferInside.exists?_eq (differ : DifferInside t t' cfg) :
    t.exists? cfg.root = t'.exists? cfg.root := by
  have root := differ.root true
  rw [exists?, exists?, find?, find?]
  generalize t.resolve cfg.root true = result at root
  generalize t'.resolve cfg.root true = result' at root
  cases root with
  | fault => rfl
  | node => rfl

/-- The scans of two trees that differ only below directories that are left out give the same
answer, unless one of them ends early below such a directory, which takes a link that is followed or
a part that may not be read. -/
theorem scan_outside (alike : AlikeOutside t t' cfg) :
    scan t cfg = scan t' cfg ∨ ∃ fault,
      Walk.Below (walkOf t cfg) (LeftOut t t' cfg) fault ∧
        (cfg.followSymlinks = true ∨ fault.IsDenied) ∧
          (scan t cfg = .error (.walk fault) ∨ scan t' cfg = .error (.walk fault)) := by
  have both := alike.exists?_eq
  cases there : t.exists? cfg.root with
  | false =>
    rw [there] at both
    left
    rw [scan, scan, there, ← both]
    rfl
  | true =>
    rw [there] at both
    cases filtered : filters cfg with
    | error => exact .inl (by simp only [scan, there, ← both, filtered])
    | ok f =>
      rw [scan_of_walk there filtered, scan_of_walk both.symm filtered]
      obtain ⟨location, node, leads⟩ := exists_root there
      obtain ⟨location', node', leads'⟩ := exists_root both.symm
      have outcome : Walk.Outcome _ _ (t.files cfg.root cfg.followSymlinks) :=
        Walk.outcome_files cfg.followSymlinks alike.proper leads
      have outcome' : Walk.Outcome _ _ (t'.files cfg.root cfg.followSymlinks) :=
        Walk.outcome_files cfg.followSymlinks alike.proper' leads'
      have agree : Walk.Agree (walkOf t cfg) _ _ (t.files cfg.root cfg.followSymlinks)
          (t'.files cfg.root cfg.followSymlinks) :=
        Walk.agree_files alike.walks (drops filtered) (drops' filtered) leads
      -- A walk that may read all it meets comes to its end, as long as it follows no links.
      generalize t.files cfg.root cfg.followSymlinks = result at agree outcome
      generalize t'.files cfg.root cfg.followSymlinks = result' at agree outcome'
      cases agree with
      | fault => exact .inl rfl
      | ended below =>
        cases outcome with
        | error cause => exact .inr ⟨_, below, cause, .inl rfl⟩
      | ended' below =>
        cases outcome' with
        | error cause => exact .inr ⟨_, below, cause, .inr rfl⟩
      | @files files files' same =>
        cases outcome with
        | ok reached =>
          left
          dsimp only
          rw [alike.records filtered (fun found mem => (reached found mem).2) same]

/-- Where there are no links, nothing but the directories that are left out is to be alike. -/
lemma DifferInside.alike {es : List (String × Node)} (differ : DifferInside t t' cfg)
    (leads : t.resolve cfg.root true = .ok (location, .directory es))
    (free : (Node.directory es).LinkFree) (plain : '/' ∉ cfg.parsedSuffix.toList) :
    AlikeOutside t t' cfg where
  toDifferInside := differ
  links := by
    rintro - _ location target ⟨front, name, location', es', rfl, here, mem⟩
    exact absurd mem (Walk.link_notMem_of_reaches differ.proper leads free here)
  sidecars := by
    rintro names location' content executable reaches -
      (rfl | slash | ⟨front, name, location', es', target, rfl, here, mem⟩)
    · cases Walk.get?_of_reaches differ.proper leads free reaches
    · exact absurd slash plain
    · exact absurd mem (Walk.link_notMem_of_reaches differ.proper leads free here)

/-- Some packages, in a directory that is never scanned, and what is beside that directory. -/
def beside (packages own : List (String × Node)) : FileTree where
  top := .directory [("src", .directory (("vendor", .directory packages) :: own))]
  current := []

lemma beside_src (packages own : List (String × Node)) (follow : Bool) :
    (beside packages own).resolve "/src" follow =
      .ok (["src"], .directory (("vendor", .directory packages) :: own)) :=
  resolve_src rfl follow

lemma beside_differ {packages packages' own : List (String × Node)} (root : cfg.root = "/src")
    (proper : Node.Proper (.directory packages)) (proper' : Node.Proper (.directory packages'))
    (own_proper : Node.Proper (.directory own)) (new : "vendor" ∉ own.map Prod.fst) :
    DifferInside (beside packages own) (beside packages' own) cfg where
  proper := Node.proper_empty.cons (by decide) (own_proper.cons (by decide) proper new)
    List.not_mem_nil
  proper' := Node.proper_empty.cons (by decide) (own_proper.cons (by decide) proper' new)
    List.not_mem_nil
  root follow := by
    have left : LeftOut (beside packages own) (beside packages' own) cfg ["vendor"] :=
      .inl ⟨[], "vendor", by decide, rfl⟩
    rw [root, beside_src, beside_src]
    exact .node (.directory (.cons (.inside left) (Walk.EntriesOutside.refl [] own)))

lemma proper_single {name : String} {node : Node} (isName : IsName name) (proper : node.Proper) :
    Node.Proper (.directory [(name, node)]) :=
  Node.proper_empty.cons isName proper List.not_mem_nil

/-- A file, and a package with a file of its own. -/
def dependent : FileTree :=
  beside [("dep.php", .file [50] false)] [("web.php", .file [49] false)]

/-- A file, and a package with a link that leads nowhere. -/
def dangling : FileTree :=
  beside [("gone.php", .link "nowhere")] [("web.php", .file [49] false)]

/-- A file, and a package with a directory that may not be read. -/
def locked : FileTree :=
  beside [("cache", .sealed true)] [("web.php", .file [49] false)]

/-- A scan that follows links. -/
def following : IngestConfig := { root := "/src", followSymlinks := true }

lemma dangling_differ : DifferInside dependent dangling following :=
  beside_differ rfl (proper_single (by decide) .file) (proper_single (by decide) .link)
    (proper_single (by decide) .file) (by decide)

lemma locked_differ : DifferInside dependent locked { root := "/src" } :=
  beside_differ rfl (proper_single (by decide) .file) (proper_single (by decide) .sealed)
    (proper_single (by decide) .file) (by decide)

theorem scan_outside_of_packages :
    scan dependent following = scan dangling following ∨ ∃ fault,
      Walk.Below (walkOf dependent following) (LeftOut dependent dangling following) fault ∧
        (following.followSymlinks = true ∨ fault.IsDenied) ∧
          (scan dependent following = .error (.walk fault) ∨
            scan dangling following = .error (.walk fault)) := by
  have free : Node.LinkFree (.directory
      [("vendor", .directory [("dep.php", .file [50] false)]), ("web.php", .file [49] false)]) :=
    (Node.linkFree_empty.cons .file).cons (Node.linkFree_empty.cons .file)
  exact scan_outside (dangling_differ.alike (beside_src _ _ true) free (by decide))

/-! ### What is left out can still be seen -/

lemma exists_record {found : List FoundFile} {file : FoundFile} {source : String}
    (there : t.exists? cfg.root = true) (ok : filters cfg = .ok f)
    (walked : t.files cfg.root cfg.followSymlinks = .ok found) (mem : file ∈ found)
    (taken : f.takes (keyOf file.names) = true)
    (decoded : Text.decode? file.content = some source) :
    ∃ records, scan t cfg = .ok records ∧
      ∃ r ∈ records, Describes t cfg file.names file.content r ∧ r.source = source := by
  obtain ⟨r, described, eq⟩ := exists_describes t cfg file.names decoded
  refine ⟨_, scan_eq_ok_iff.2 ⟨f, found, there, ok, walked, rfl⟩, r, ?_, described, eq⟩
  exact (mem_scan_iff ok).2 ⟨file, mem, (filters_iff ok).1 taken, described⟩

lemma described_of_scan {found : List FoundFile} {records : List NewRecord} {r : NewRecord}
    (walked : t.files cfg.root cfg.followSymlinks = .ok found) (ok : scan t cfg = .ok records)
    (mem : r ∈ records) : ∃ file ∈ found, Describes t cfg file.names file.content r := by
  obtain ⟨f, found', -, filtered, walked', rfl⟩ := scan_eq_ok_iff.1 ok
  obtain rfl := Except.ok.inj (walked.symm.trans walked')
  obtain ⟨file, mem, -, described⟩ := (mem_scan_iff filtered).1 mem
  exact ⟨file, mem, described⟩

/-- A link to a file in a directory that is never scanned. -/
def linked (content : List UInt8) : FileTree :=
  beside [("dep.php", .file content false)] [("web.php", .link "vendor/dep.php")]

lemma files_linked (content : List UInt8) : (linked content).files "/src" true =
    .ok [⟨["vendor", "dep.php"], content⟩, ⟨["web.php"], content⟩] := by
  have followed : (linked content).resolve "/src/web.php" true =
      .ok (["dep.php", "vendor", "src"], .file content false) := by
    simp [resolve, resolveFrom, linked, beside, Path.isAbsolute, steps, Text.splitOnChar, start,
      Node.get?, Node.child?, maxLinks]
  have leads : (linked content).resolve "/src" true = .ok (["src"], .directory
      [("vendor", .directory [("dep.php", .file content false)]),
        ("web.php", .link "vendor/dep.php")]) := beside_src _ _ true
  have path : Path.join "/src" "web.php" = "/src/web.php" := by decide
  rw [Walk.files_of_directory leads]
  simp [filesOfEntries, filesOf, Walk.pathOf, path, followed]

/-- A file whose sidecar is a link to a file in a directory that is never scanned. -/
def annotated (content : List UInt8) : FileTree :=
  beside [("value.json", .file content false)]
    [("web.php", .file [60] false), ("web.php.ast.json", .link "vendor/value.json")]

lemma files_annotated (content : List UInt8) : (annotated content).files "/src" false =
    .ok [⟨["vendor", "value.json"], content⟩, ⟨["web.php"], [60]⟩] := by
  have leads : (annotated content).resolve "/src" true = .ok (["src"], .directory
      [("vendor", .directory [("value.json", .file content false)]),
        ("web.php", .file [60] false),
        ("web.php.ast.json", .link "vendor/value.json")]) := beside_src _ _ true
  rw [Walk.files_of_directory leads]
  simp [filesOfEntries, filesOf]

lemma read?_annotated (content : List UInt8) :
    (annotated content).read? "/src/web.php.ast.json" = some content := by
  simp [read?, find?, resolve, resolveFrom, annotated, beside, Path.isAbsolute, steps,
    Text.splitOnChar, start, Node.get?, Node.child?, maxLinks]

lemma files_dangling :
    dangling.files "/src" true = .error (.unreachable "/src/vendor/gone.php" .notFound) := by
  have followed : dangling.resolve "/src/vendor/gone.php" true = .error .notFound := by
    simp [resolve, resolveFrom, dangling, beside, Path.isAbsolute, steps, Text.splitOnChar, start,
      Node.get?, Node.child?, maxLinks]
  have leads : dangling.resolve "/src" true = .ok (["src"], .directory
      [("vendor", .directory [("gone.php", .link "nowhere")]),
        ("web.php", .file [49] false)]) := beside_src _ _ true
  have path : Path.join (Path.join "/src" "vendor") "gone.php" = "/src/vendor/gone.php" := by
    decide
  rw [Walk.files_of_directory leads]
  simp [filesOfEntries, filesOf, Walk.pathOf, path, followed]

lemma files_locked :
    locked.files "/src" false = .error (.unreachable "/src/vendor/cache" .denied) := by
  have leads : locked.resolve "/src" true = .ok (["src"], .directory
      [("vendor", .directory [("cache", .sealed true)]),
        ("web.php", .file [49] false)]) := beside_src _ _ true
  have path : Path.join (Path.join "/src" "vendor") "cache" = "/src/vendor/cache" := by decide
  rw [Walk.files_of_directory leads]
  simp [filesOfEntries, filesOf, Walk.pathOf, path]

lemma files_dependent (follow : Bool) : dependent.files "/src" follow =
    .ok [⟨["vendor", "dep.php"], [50]⟩, ⟨["web.php"], [49]⟩] := by
  have leads : dependent.resolve "/src" true = .ok (["src"], .directory
      [("vendor", .directory [("dep.php", .file [50] false)]),
        ("web.php", .file [49] false)]) := beside_src _ _ true
  rw [Walk.files_of_directory leads]
  simp [filesOfEntries, filesOf]

lemma linked_differ : DifferInside (linked [49]) (linked [50]) following :=
  beside_differ rfl (proper_single (by decide) .file) (proper_single (by decide) .file)
    (proper_single (by decide) .link) (by decide)

lemma annotated_differ : DifferInside (annotated [49]) (annotated [50]) { root := "/src" } :=
  beside_differ rfl (proper_single (by decide) .file) (proper_single (by decide) .file)
    ((proper_single (by decide) .link).cons (by decide) .file (by decide)) (by decide)

lemma scan_linked : scan (linked [49]) following ≠ scan (linked [50]) following := by
  intro same
  obtain ⟨f, filtered, taken⟩ : ∃ f, filters following = .ok f ∧ f.takes "web.php" = true :=
    ⟨_, rfl, by decide +kernel⟩
  have there : (linked [49]).exists? "/src" = true := exists_of_resolve (beside_src _ _ true)
  obtain ⟨records, ok, r, mem, -, source⟩ := exists_record there filtered (files_linked [49])
    (List.mem_cons_of_mem _ List.mem_cons_self) taken (show Text.decode? [49] = some "1" by decide)
  obtain ⟨file, found, described⟩ := described_of_scan (files_linked [50]) (same ▸ ok) mem
  have content : file.content = [50] := by
    rcases List.mem_pair.1 found with rfl | rfl
    · rfl
    · rfl
  have other := Text.decode?_iff.2 described.source
  rw [content, source] at other
  revert other
  decide

lemma scan_annotated :
    scan (annotated [49]) { root := "/src" } ≠ scan (annotated [50]) { root := "/src" } := by
  intro same
  obtain ⟨f, filtered, taken⟩ : ∃ f, filters { root := "/src" } = .ok f ∧
      f.takes "web.php" = true := ⟨_, rfl, by decide +kernel⟩
  have there : (annotated [49]).exists? "/src" = true := exists_of_resolve (beside_src _ _ true)
  obtain ⟨records, ok, r, mem, described, -⟩ := exists_record there filtered
    (files_annotated [49]) (List.mem_cons_of_mem _ List.mem_cons_self) taken
    (show Text.decode? [60] = some "<" by decide)
  obtain ⟨file, found, described'⟩ := described_of_scan (files_annotated [50]) (same ▸ ok) mem
  have path : ["web.php"].foldl Path.join "/src" ++ ".ast.json" = "/src/web.php.ast.json" := by
    decide
  have value : r.parsed = .nat 1 := by
    refine described.sidecar (.nat 1) ⟨"1", ?_, rfl⟩
    rw [Text.decode?_iff.1 (show Text.decode? [49] = some "1" by decide)]
    exact path ▸ read?_annotated [49]
  rcases List.mem_pair.1 found with rfl | rfl
  · have paths := described.path.symm.trans described'.path
    revert paths
    decide
  · have value' : r.parsed = .nat 2 := by
      refine described'.sidecar (.nat 2) ⟨"2", ?_, rfl⟩
      rw [Text.decode?_iff.1 (show Text.decode? [50] = some "2" by decide)]
      exact path ▸ read?_annotated [50]
    cases value.symm.trans value'

/-- A scan that comes to the end of the two packages is not one that ends early. -/
lemma scan_dependent_ne (root : cfg.root = "/src") (ok : filters cfg = .ok f)
    {packages own : List (String × Node)} {fault : WalkFault}
    (ended : (beside packages own).files cfg.root cfg.followSymlinks = .error fault) :
    scan dependent cfg ≠ scan (beside packages own) cfg := by
  have there (packages own : List (String × Node)) :
      (beside packages own).exists? cfg.root = true :=
    root ▸ exists_of_resolve (beside_src packages own true)
  have walked : dependent.files cfg.root cfg.followSymlinks = .ok _ :=
    root ▸ files_dependent cfg.followSymlinks
  rw [scan_of_walk (t := dependent) (there _ _) ok, scan_of_walk (there packages own) ok, walked,
    ended]
  nofun

lemma scan_dangling : scan dependent following ≠ scan dangling following := by
  obtain ⟨f, filtered⟩ : ∃ f, filters following = .ok f := ⟨_, rfl⟩
  exact scan_dependent_ne rfl filtered files_dangling

lemma scan_locked : scan dependent { root := "/src" } ≠ scan locked { root := "/src" } := by
  obtain ⟨f, filtered⟩ : ∃ f, filters { root := "/src" } = .ok f := ⟨_, rfl⟩
  exact scan_dependent_ne rfl filtered files_locked

/-- Links lead into a directory that is left out, and what is in it can end a scan. -/
theorem scan_enters_left_out :
    (DifferInside (linked [49]) (linked [50]) following ∧
      scan (linked [49]) following ≠ scan (linked [50]) following) ∧
    (DifferInside (annotated [49]) (annotated [50]) { root := "/src" } ∧
      scan (annotated [49]) { root := "/src" } ≠ scan (annotated [50]) { root := "/src" }) ∧
    (DifferInside dependent dangling following ∧
      scan dependent following ≠ scan dangling following) ∧
    (DifferInside dependent locked { root := "/src" } ∧
      scan dependent { root := "/src" } ≠ scan locked { root := "/src" }) :=
  ⟨⟨linked_differ, scan_linked⟩, ⟨annotated_differ, scan_annotated⟩,
    ⟨dangling_differ, scan_dangling⟩, ⟨locked_differ, scan_locked⟩⟩

end Multipass.Ingest
