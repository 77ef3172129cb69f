import Multipass.Prompt.Context
import Multipass.Proofs.Files.LinkFree
import Multipass.Proofs.Ingest.Selection

/-!
# What paths of records name

The path of a record leads from the root to the file that its source was read from, if no backslash
is in the names of the file. A backslash becomes a separator, and then the path may be that of
another file.

Main statement: `scan_names_files`.
-/

namespace Multipass.Ingest

open FileTree

/-- The walk of a configuration. -/
def walkOf (t : FileTree) (cfg : IngestConfig) : Walk :=
  ⟨t, cfg.root, cfg.followSymlinks⟩

variable {t : FileTree} {cfg : IngestConfig}

/-- A scan walks below a root that leads somewhere. -/
lemma exists_root (there : t.exists? cfg.root = true) :
    ∃ location node, t.resolve cfg.root true = .ok (location, node) := by
  rw [exists?, find?] at there
  split at there
  · next location node leads => exact ⟨location, node, leads⟩
  · cases there

/-- Records have different paths, and each path leads from the root to the file that the source was
read from, if each selected file has names, none of them with a backslash. -/
theorem scan_names_files {records : List NewRecord} (proper : t.top.Proper)
    (ok : scan t cfg = .ok records)
    (plain : ∀ names location content executable,
      (walkOf t cfg).Reaches names location (.file content executable) →
        Selects cfg (keyOf names) → names ≠ [] ∧ Plain names) :
    (records.map (·.path)).Nodup ∧
      ∀ r ∈ records, ∃ names location content executable,
        (walkOf t cfg).Reaches names location (.file content executable) ∧
        Describes t cfg names content r ∧
        ∀ (run : String) (record : Record) (requires : Requires) (prior : List PassResult),
          record.path = r.path →
            t.resolve (InvocationContext.build run record requires prior cfg.root).file true =
              .ok (location, .file content executable) := by
  obtain ⟨f, found, there, filtered, walked, rfl⟩ := scan_eq_ok_iff.1 ok
  obtain ⟨root, node, leads⟩ := exists_root there
  have outcome := Walk.outcome_files cfg.followSymlinks proper leads
  rw [walked] at outcome
  cases outcome with
  | ok reached once =>
    have isName {names location node} (reaches : (walkOf t cfg).Reaches names location node) :=
      reaches.isName proper
    constructor
    · refine (((List.mergeSort_perm _ _).map _).nodup_iff).2 (paths_nodup filtered once ?_)
      intro file mem file' mem' selected selected' same
      obtain ⟨-, location, executable, reaches⟩ := reached file mem
      obtain ⟨-, location', executable', reaches'⟩ := reached file' mem'
      obtain ⟨full, no_slash⟩ := plain _ _ _ _ reaches selected
      obtain ⟨full', no_slash'⟩ := plain _ _ _ _ reaches' selected'
      exact (keyOf_inj no_slash no_slash' full full' (isName reaches) (isName reaches')).1 same
    · intro r mem
      obtain ⟨file, mem, selected, described⟩ := (mem_scan_iff filtered).1 mem
      obtain ⟨-, location, executable, reaches⟩ := reached file mem
      obtain ⟨full, no_slash⟩ := plain _ _ _ _ reaches selected
      refine ⟨file.names, location, file.content, executable, reaches, described, ?_⟩
      intro run record requires prior same
      have path : (InvocationContext.build run record requires prior cfg.root).file =
          (walkOf t cfg).pathOf file.names := by
        change Path.join cfg.root record.path = _
        rw [same, described.path, join_keyOf no_slash full (isName reaches)]
        rfl
      rw [path]
      exact Walk.resolve_of_reaches proper reaches

/-- A path to the one directory at the top of a tree. -/
lemma resolve_src {es : List (String × Node)} (top : t.top = .directory [("src", .directory es)])
    (follow : Bool) : t.resolve "/src" follow = .ok (["src"], .directory es) := by
  have path : Path.join "/" "src" = "/src" := by decide
  rw [← path]
  exact resolve_entry (resolve_top top) (by decide) (if_pos rfl) nofun

/-- A file in a directory. -/
def nestedTree : FileTree where
  top := .directory [("src", .directory [("a", .directory [("b.php", .file [49] false)])])]
  current := []

theorem scan_names_nested :
    ∃ records, scan nestedTree { root := "/src" } = .ok records ∧
      (records.map (·.path)).Nodup ∧
      ∀ r ∈ records, ∃ names location content executable,
        (walkOf nestedTree { root := "/src" }).Reaches names location
          (.file content executable) ∧
        Describes nestedTree { root := "/src" } names content r ∧
        ∀ (run : String) (record : Record) (requires : Requires) (prior : List PassResult),
          record.path = r.path →
            nestedTree.resolve
                (InvocationContext.build run record requires prior "/src").file true =
              .ok (location, .file content executable) := by
  have proper : Node.Proper (.directory [("src", .directory
      [("a", .directory [("b.php", .file [49] false)])])]) :=
    Node.proper_empty.cons (by decide)
      (Node.proper_empty.cons (by decide)
        (Node.proper_empty.cons (by decide) .file List.not_mem_nil) List.not_mem_nil)
      List.not_mem_nil
  have leads : nestedTree.resolve "/src" true =
      .ok (["src"], .directory [("a", .directory [("b.php", .file [49] false)])]) :=
    resolve_src rfl true
  have free : Node.LinkFree (.directory [("a", .directory [("b.php", .file [49] false)])]) :=
    Node.linkFree_empty.cons (Node.linkFree_empty.cons .file)
  have walked : nestedTree.files "/src" false = .ok [⟨["a", "b.php"], [49]⟩] := by
    rw [Walk.files_of_directory leads]
    simp [filesOfEntries, filesOf]
  obtain ⟨f, filtered⟩ : ∃ f, filters { root := "/src" } = .ok f := ⟨_, rfl⟩
  have ok := scan_eq_ok_iff.2 ⟨f, _, exists_of_resolve leads, filtered, walked, rfl⟩
  refine ⟨_, ok, scan_names_files proper ok fun names location content executable reaches _ => ?_⟩
  have place := Walk.get?_of_reaches proper leads free reaches
  obtain ⟨files, walked', held⟩ := Walk.files_linkFree false proper leads free
  obtain rfl := Except.ok.inj (walked.symm.trans walked')
  have mem := (held ⟨names, content⟩).2 ⟨names, executable, rfl, place⟩
  cases List.mem_singleton.1 mem
  exact ⟨by decide, by decide⟩

/-- A file in a directory, and a file with a backslash in its name. -/
def slashTree : FileTree where
  top := .directory [("src", .directory
    [("a", .directory [("b.php", .file [49] false)]), ("a\\b.php", .file [50] false)])]
  current := []

/-- A file with a backslash in its name has the path of another file. -/
theorem scan_merges_paths :
    ∃ records, scan slashTree { root := "/src" } = .ok records ∧
      ∃ r ∈ records, ∃ r' ∈ records, r.path = r'.path ∧ r.source = "1" ∧ r'.source = "2" ∧
        slashTree.read? (Path.join "/src" r'.path) = some (Text.encode "1") := by
  have leads : slashTree.resolve "/src" true = .ok (["src"], .directory
      [("a", .directory [("b.php", .file [49] false)]), ("a\\b.php", .file [50] false)]) :=
    resolve_src rfl true
  have walked : slashTree.files "/src" false =
      .ok [⟨["a", "b.php"], [49]⟩, ⟨["a\\b.php"], [50]⟩] := by
    rw [Walk.files_of_directory leads]
    simp [filesOfEntries, filesOf]
  obtain ⟨f, filtered, taken⟩ : ∃ f, filters { root := "/src" } = .ok f ∧
      f.takes "a/b.php" = true := ⟨_, rfl, by decide +kernel⟩
  have ok := scan_eq_ok_iff.2 ⟨f, _, exists_of_resolve leads, filtered, walked, rfl⟩
  have selected := (filters_iff filtered).1 taken
  obtain ⟨r, described, source⟩ := exists_describes slashTree { root := "/src" }
    ["a", "b.php"] (show Text.decode? [49] = some "1" by decide)
  obtain ⟨r', described', source'⟩ := exists_describes slashTree { root := "/src" }
    ["a\\b.php"] (show Text.decode? [50] = some "2" by decide)
  have key : keyOf ["a", "b.php"] = "a/b.php" := by decide
  have key' : keyOf ["a\\b.php"] = "a/b.php" := by decide
  refine ⟨_, ok, r, (mem_scan_iff filtered).2 ⟨_, List.mem_cons_self, ?_, described⟩, r',
    (mem_scan_iff filtered).2 ⟨_, List.mem_cons_of_mem _ List.mem_cons_self, ?_, described'⟩, ?_,
    source, source', ?_⟩
  · rwa [key]
  · rwa [key']
  · rw [described.path, described'.path, key, key']
  · have path : Path.join "/src" "a/b.php" = "/src/a/b.php" := by decide
    have bytes : Text.encode "1" = [49] := by
      rw [Text.encode_eq]
      rfl
    rw [described'.path, key', path, bytes]
    simp [read?, find?, resolve, resolveFrom, slashTree, Path.isAbsolute, steps, Text.splitOnChar,
      start, Node.get?, Node.child?]

end Multipass.Ingest
