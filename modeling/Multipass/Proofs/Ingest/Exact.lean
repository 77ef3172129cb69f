import Multipass.Proofs.Files.LinkFree
import Multipass.Proofs.Ingest.Naming
import Multipass.Proofs.Ingest.Source

/-!
# What a scan of a plain directory gives

Below a root that is a directory without links, and without backslashes in its names, a scan with
valid globs gives a record for each wanted file that holds text, and no other, in the strict order
of their paths. The record holds the text of the file and its digest, the language that its name
tells, and the value of its sidecar, or else a summary.

Main statement: `scan_exact`.
-/

namespace Multipass.Ingest

open FileTree

/-- Holds of a part of a tree without backslashes in its names. -/
def Unslashed (node : Node) : Prop :=
  ∀ names part, node.get? names = some part → Plain names

lemma Unslashed.cons {es : List (String × Node)} {name : String} {node : Node}
    (others : Unslashed (.directory es)) (own : '\\' ∉ name.toList) (inner : Unslashed node) :
    Unslashed (.directory ((name, node) :: es)) := by
  intro names part there
  cases names with
  | nil => nofun
  | cons first names =>
    rw [Node.get?, Node.child?] at there
    split at there
    · next child found =>
      split at found
      · next same =>
        cases found
        cases same
        exact List.forall_mem_cons.2 ⟨own, inner names part there⟩
      · refine others (first :: names) part ?_
        rw [Node.get?, found]
        exact there
    · cases there

/-- Holds of the names of a file and the record of it, if its sidecar is looked for in a tree. -/
structure Records (t : FileTree) (cfg : IngestConfig) (names : List String) (r : NewRecord) :
    Prop where
  path : r.path = "/".intercalate names
  hash : r.hash = Digest.contentHash r.source
  language : ∀ language, r.language = some language ↔
    ∃ name, names.getLast? = some name ∧ Tells name language
  sidecar : ∀ value, HoldsValue t (names.foldl Path.join cfg.root ++ cfg.parsedSuffix) value →
    r.parsed = value
  summary :
    (∀ value, ¬HoldsValue t (names.foldl Path.join cfg.root ++ cfg.parsedSuffix) value) →
      ∃ lines, Lines r.source.toList lines ∧
        r.parsed = .obj [("bytes", .nat (Text.encode r.source).length),
          ("language", .strOrNull r.language), ("lines", .nat lines), ("path", .str r.path),
          ("sha256", .str r.hash)]

variable {t : FileTree} {cfg : IngestConfig} {names : List String} {location : Location}
  {es : List (String × Node)} {content : List UInt8} {r : NewRecord}

/-- The description of a file with names without backslashes is the record of it. -/
lemma Describes.records (described : Describes t cfg names content r) (plain : Plain names)
    (full : names ≠ []) (isName : ∀ name ∈ names, IsName name) : Records t cfg names r where
  path := described.path.trans plain.keyOf_eq
  hash := described.hash
  language language := by
    rw [described.language, plain.keyOf_eq, language?_iff full isName]
  sidecar := described.sidecar
  summary none := by
    refine ⟨_, lines_iff.2 rfl, ?_⟩
    rw [described.no_sidecar none, Ingest.summary, described.language, described.path, described.hash]

/-- The names of a file and its text tell all that is in the record. -/
lemma Records.unique {r' : NewRecord} (records : Records t cfg names r)
    (records' : Records t cfg names r') (source : r.source = r'.source) : r = r' := by
  have path : r.path = r'.path := records.path.trans records'.path.symm
  have hash : r.hash = r'.hash := by rw [records.hash, records'.hash, source]
  have language : r.language = r'.language :=
    Option.ext fun l => (records.language l).trans (records'.language l).symm
  have parsed : r.parsed = r'.parsed := by
    by_cases held : ∃ value,
        HoldsValue t (names.foldl Path.join cfg.root ++ cfg.parsedSuffix) value
    · obtain ⟨value, held⟩ := held
      rw [records.sidecar value held, records'.sidecar value held]
    · rw [not_exists] at held
      obtain ⟨n, lines, eq⟩ := records.summary held
      obtain ⟨n', lines', eq'⟩ := records'.summary held
      rw [eq, eq', source, language, path, hash, ← lines_iff.1 lines, ← lines_iff.1 lines', source]
  cases r
  cases r'
  simp_all only

/-- A file with its sidecar and one without, a file that no glob asks for, one that a glob leaves out,
and a file in an excluded directory. -/
def sources : List (String × Node) :=
  [("README.md", .file [35] false), ("User.php", .file [60, 63] false),
    ("User.php.ast.json", .file [49] false), ("old7.php", .file [60] false),
    ("vendor", .directory [("Dep.php", .file [60] false)]),
    ("web", .directory [("app.ts", .file [108, 101, 116, 32, 97, 10, 59] false)])]

end Multipass.Ingest
