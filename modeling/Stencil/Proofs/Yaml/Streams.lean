import Stencil.Proofs.Evaluation.Assembling
import Stencil.Proofs.Text.Obstacles

/-!
# Documents written apart and together

A stream of documents is what its documents are written to, one after another. Only
its end depends on more than one document: a last document that leaves open where it
ends is closed by a line of its own, which is missing if the document is not the
last. Documents that are maps or arrays leave nothing open, so their streams can be
put together. In an assembled result of such documents, the documents of all files
are therefore written as the files are, one after another.

## Main definitions

* `Node.isCollection` — maps and arrays.
* `Node.WrittenAs` — the tree that a document is written from.
* `documentData` — the bytes of rendered files that are document sets.

## Main results

* `Yaml.stream_append` — the stream of documents that leave nothing open, and of
  others after them.
* `Documents.serialize_append` — the same of their bytes.
* `serialize_documentsOf`, `documentData_of_kinds` — the bytes of the documents of
  all files.
* `written_together` — the documents of an assembled result.
-/

namespace Stencil

/-! ## Bytes of texts -/

namespace Documents

theorem encode_eq_ok_iff {t : Text} {bytes : List UInt8} :
    encode t = .ok bytes ↔ (∀ c ∈ t, c.isSurrogate = false) ∧ t.flatMap Utf8.bytesOf = bytes := by
  rw [← Utf8.obstacleFrom_eq_none_iff 0]
  unfold encode Utf8.encode Utf8.obstacle?
  cases Utf8.obstacleFrom CodePoint.isSurrogate 0 t <;> simp [Fault.throw]

/-- The bytes of two texts one after the other. -/
theorem encode_append {s t : Text} {bytes bytes' : List UInt8} (h : encode s = .ok bytes)
    (h' : encode t = .ok bytes') : encode (s ++ t) = .ok (bytes ++ bytes') := by
  rw [encode_eq_ok_iff] at h h' ⊢
  obtain ⟨clean, rfl⟩ := h
  obtain ⟨clean', rfl⟩ := h'
  exact ⟨List.forall_mem_append.mpr ⟨clean, clean'⟩, List.flatMap_append⟩

end Documents

/-! ## Streams of trees -/

namespace Yaml

/-- Documents that leave nothing open are written one after another. -/
theorem stream_of_closed {trees : List Tree} (closed : ∀ t ∈ trees, isOpenEnded t = false) :
    stream trees = trees.flatMap document := by
  have last : (trees.getLast?.map isOpenEnded).getD false = false := by
    cases h : trees.getLast? with
    | none => rfl
    | some t => exact closed t (List.mem_of_getLast? h)
  rw [stream, last]
  exact List.append_nil _

/-- **Documents that leave nothing open** can be followed by others. -/
theorem stream_append {trees trees' : List Tree} (closed : ∀ t ∈ trees, isOpenEnded t = false) :
    stream (trees ++ trees') = stream trees ++ stream trees' := by
  rw [stream_of_closed closed]
  cases trees' with
  | nil => rw [List.append_nil, stream_of_closed closed]; exact (List.append_nil _).symm
  | cons t trees' =>
      -- The document that is asked for its end is not among the first ones.
      have last : (trees ++ t :: trees').getLast? = (t :: trees').getLast? := by
        rw [List.getLast?_append_of_ne_nil _ (List.cons_ne_nil _ _)]
      rw [stream, stream, last, List.flatMap_append, List.append_assoc]

theorem isOpenEnded_of_map {es : List (Value × Value)} {t : Tree}
    (h : Tree.ofValue (.map es) = .ok t) : isOpenEnded t = false := by
  rw [Tree.ofValue] at h
  obtain ⟨trees, -, h⟩ := bind_eq_ok.mp h
  cases h
  rfl

theorem isOpenEnded_of_list {xs : List Value} {t : Tree}
    (h : Tree.ofValue (.list xs) = .ok t) : isOpenEnded t = false := by
  rw [Tree.ofValue] at h
  obtain ⟨trees, -, h⟩ := bind_eq_ok.mp h
  cases h
  rfl

end Yaml

/-! ## Documents -/

namespace Node

/-- Whether a value is a map or an array, of nodes or plain. -/
def isCollection : Node → Bool
  | .map _ _ | .array _ _ | .plain (.map _) | .plain (.list _) => true
  | _ => false

/-- Whether a node is written from a tree. -/
def WrittenAs (n : Node) (t : Yaml.Tree) : Prop :=
  ∃ v, n.toPlain = .ok v ∧ Yaml.Tree.ofValue v = .ok t

/-- Maps and arrays leave nothing open. -/
theorem WrittenAs.closed {n : Node} {t : Yaml.Tree} (h : n.WrittenAs t)
    (collection : n.isCollection = true) : Yaml.isOpenEnded t = false := by
  obtain ⟨v, hv, ht⟩ := h
  unfold isCollection at collection
  split at collection
  · obtain ⟨es, -, hv⟩ := bind_eq_ok.mp hv
    cases hv
    exact Yaml.isOpenEnded_of_map ht
  · obtain ⟨xs, -, hv⟩ := bind_eq_ok.mp hv
    cases hv
    exact Yaml.isOpenEnded_of_list ht
  · cases hv
    exact Yaml.isOpenEnded_of_map ht
  · cases hv
    exact Yaml.isOpenEnded_of_list ht
  · cases collection

end Node

namespace Documents

/-- The trees that documents are written from, one for each. -/
theorem trees_eq_ok_iff {docs : List Document} {trees : List Yaml.Tree} :
    (∃ vs, toPlain docs = .ok vs ∧ Yaml.Tree.ofValues vs = .ok trees) ↔
      List.Forall₂ (fun d t => d.value.WrittenAs t) docs trees := by
  induction docs generalizing trees with
  | nil =>
      constructor
      · rintro ⟨vs, hvs, htrees⟩
        cases hvs
        cases htrees
        exact .nil
      · intro h
        cases h
        exact ⟨[], rfl, rfl⟩
  | cons d docs ih =>
      constructor
      · rintro ⟨vs, hvs, htrees⟩
        obtain ⟨v, hv, hvs⟩ := bind_eq_ok.mp hvs
        obtain ⟨vs', hvs', hvs⟩ := bind_eq_ok.mp hvs
        cases hvs
        rw [Yaml.Tree.ofValues] at htrees
        obtain ⟨t, ht, htrees⟩ := bind_eq_ok.mp htrees
        obtain ⟨ts, hts, htrees⟩ := bind_eq_ok.mp htrees
        cases htrees
        exact .cons ⟨v, hv, ht⟩ (ih.mp ⟨vs', hvs', hts⟩)
      · rintro (_ | ⟨⟨v, hv, ht⟩, rest⟩)
        obtain ⟨vs, hvs, hts⟩ := ih.mpr rest
        refine ⟨v :: vs, bind_eq_ok.mpr ⟨v, hv, bind_eq_ok.mpr ⟨vs, hvs, rfl⟩⟩, ?_⟩
        rw [Yaml.Tree.ofValues]
        exact bind_eq_ok.mpr ⟨_, ht, bind_eq_ok.mpr ⟨_, hts, rfl⟩⟩

theorem serialize_eq_ok_iff {docs : List Document} {bytes : List UInt8} :
    serialize docs = .ok bytes ↔
      ∃ trees, List.Forall₂ (fun d t => d.value.WrittenAs t) docs trees ∧
        encode (Yaml.stream trees) = .ok bytes := by
  unfold serialize
  constructor
  · intro h
    obtain ⟨vs, hvs, h⟩ := bind_eq_ok.mp h
    obtain ⟨trees, htrees, h⟩ := bind_eq_ok.mp h
    exact ⟨trees, trees_eq_ok_iff.mp ⟨vs, hvs, htrees⟩, h⟩
  · rintro ⟨trees, written, h⟩
    obtain ⟨vs, hvs, htrees⟩ := trees_eq_ok_iff.mpr written
    exact bind_eq_ok.mpr ⟨vs, hvs, bind_eq_ok.mpr ⟨trees, htrees, h⟩⟩

/-- **Maps and arrays are written apart as they are written together.** -/
theorem serialize_append {docs docs' : List Document} {bytes bytes' : List UInt8}
    (collections : ∀ d ∈ docs, d.value.isCollection = true) (h : serialize docs = .ok bytes)
    (h' : serialize docs' = .ok bytes') : serialize (docs ++ docs') = .ok (bytes ++ bytes') := by
  obtain ⟨trees, written, encoded⟩ := serialize_eq_ok_iff.mp h
  obtain ⟨trees', written', encoded'⟩ := serialize_eq_ok_iff.mp h'
  have closed : ∀ t ∈ trees, Yaml.isOpenEnded t = false := by
    intro t ht
    have both := (List.forall₂_and_left _ _).mpr ⟨collections, written⟩
    obtain ⟨d, collection, one⟩ := exists_of_forall₂ both.flip t ht
    exact Node.WrittenAs.closed one collection
  refine serialize_eq_ok_iff.mpr ⟨trees ++ trees', List.rel_append written written', ?_⟩
  rw [Yaml.stream_append closed]
  exact encode_append encoded encoded'

end Documents

/-! ## Documents of a result -/

/-- The bytes of the rendered files that are document sets, one after another. -/
def documentData (sets : DocumentSets) (files : List Located) (outputs : List OutputFile) :
    List UInt8 :=
  ((files.zip outputs).filter fun p => (sets.lookup p.1).isSome).flatMap (·.2.data)

section Together

variable {sets : DocumentSets} {fragments : Fragments} {files : List Located}
  {outputs : List OutputFile} {f : Located} {output : OutputFile}

theorem documentData_cons_of_some {docs : List Document} (found : sets.lookup f = some docs) :
    documentData sets (f :: files) (output :: outputs) =
      output.data ++ documentData sets files outputs := by
  rw [documentData, List.zip_cons_cons, List.filter_cons_of_pos (by simp [found]),
    List.flatMap_cons, documentData]

theorem documentData_cons_of_none (none : sets.lookup f = none) :
    documentData sets (f :: files) (output :: outputs) = documentData sets files outputs := by
  rw [documentData, List.zip_cons_cons, List.filter_cons_of_neg (by simp [none]), documentData]

theorem documentsOf_cons :
    documentsOf sets (f :: files) = (sets.lookup f).getD [] ++ documentsOf sets files :=
  List.flatMap_cons

/-- Documents of all files together are written as their files are. -/
theorem serialize_documentsOf (collections : ∀ p ∈ sets, ∀ d ∈ p.2, d.value.isCollection = true)
    (h : List.Forall₂ (Renders sets fragments) files outputs) :
    Documents.serialize (documentsOf sets files) = .ok (documentData sets files outputs) := by
  induction h with
  | nil => rfl
  | cons one _ ih =>
      rw [documentsOf_cons]
      cases one with
      | documents found written =>
          rw [documentData_cons_of_some found, found]
          exact Documents.serialize_append
            (collections _ (Named.mem_of_lookup_eq_some found)) written ih
      | fragment none =>
          rw [documentData_cons_of_none none, none]
          exact ih

/-- If documents come from YAML files and texts do not, the rendered files that are
document sets are told by their kind. -/
theorem documentData_of_kinds (yaml : ∀ p ∈ sets, p.1.file.kind = .yaml)
    (other : ∀ p ∈ fragments, p.2.kind ≠ .yaml)
    (h : List.Forall₂ (Renders sets fragments) files outputs) :
    documentData sets files outputs = (outputs.filter (·.kind = .yaml)).flatMap (·.data) := by
  induction h with
  | nil => rfl
  | cons one _ ih =>
      cases one with
      | documents found written =>
          have hkind := yaml _ (Named.mem_of_lookup_eq_some found)
          rw [documentData_cons_of_some found, List.filter_cons_of_pos (by simpa using hkind),
            List.flatMap_cons, ih]
      | fragment none found =>
          have hkind := other _ (Named.mem_of_lookup_eq_some found)
          rw [documentData_cons_of_none none, List.filter_cons_of_neg (by simpa using hkind), ih]

end Together

/-- **Maps and arrays are written together as they are written apart.** The bytes of
documents that follow others are those of both, and no documents have no bytes. In
an assembled result, the documents of all files are written as the rendered files
that are document sets, one after another in the order of files. If documents come
from YAML files and texts do not, these are the rendered YAML files. -/
theorem written_together :
    (∀ docs docs' bytes bytes', (∀ d ∈ docs ++ docs', d.value.isCollection = true) →
      Documents.serialize docs = .ok bytes → Documents.serialize docs' = .ok bytes' →
      Documents.serialize (docs ++ docs') = .ok (bytes ++ bytes')) ∧
    Documents.serialize [] = .ok [] ∧
    ∀ sets fragments exports r, (∀ p ∈ sets, ∀ d ∈ p.2, d.value.isCollection = true) →
      assemble sets fragments exports = .ok r →
      List.Forall₂ (Renders sets fragments) (orderedFiles sets fragments) r.files ∧
      Documents.serialize r.docs =
        .ok (documentData sets (orderedFiles sets fragments) r.files) ∧
      ((∀ p ∈ sets, p.1.file.kind = .yaml) → (∀ p ∈ fragments, p.2.kind ≠ .yaml) →
        Documents.serialize r.docs =
          .ok ((r.files.filter (·.kind = .yaml)).flatMap (·.data))) := by
  refine ⟨?_, rfl, ?_⟩
  · intro docs docs' bytes bytes' collections
    exact Documents.serialize_append fun d hd => collections d (List.mem_append_left _ hd)
  · intro sets fragments exports r collections assembled
    rcases orderedFiles_cases sets fragments with
      ⟨outputs, rendered⟩ | ⟨before, f, after, docs, x, order, rendered, found, broken⟩
    · rw [assemble_complete exports rendered] at assembled
      cases assembled
      have written := serialize_documentsOf collections rendered
      refine ⟨rendered, written, fun yaml other => ?_⟩
      rw [written, documentData_of_kinds yaml other rendered]
    · rw [assemble_unserialisable exports order rendered found broken] at assembled
      cases assembled

/-- A list and a map are written one after the other. The list is of a file in a
nested library, so an assembled result has the map first; it also has a file without
documents and a text. -/
theorem written_together_nested :
    let root : Library := ⟨[], [], [], []⟩
    let nested : Library := ⟨"nested", "nested", [], []⟩
    let mark : Mark := .ofPosition .unknown
    let list : List Document := [⟨mark, .array mark [⟨mark, .plain (.str "web")⟩]⟩]
    let map : List Document := [⟨mark, .map mark [⟨mark, .str "port", .plain (.int 80)⟩]⟩]
    let sets : DocumentSets :=
      [(⟨⟨0, "a.yml", [], .yaml, true, none, none⟩, nested⟩, list),
        (⟨⟨1, "b.yml", [], .yaml, true, none, none⟩, root⟩, map),
        (⟨⟨2, "c.yml", [], .yaml, true, none, none⟩, root⟩, [])]
    let fragments : Fragments :=
      [(⟨⟨3, "d.txt", [], .text, true, none, none⟩, root⟩, ⟨"d.txt", [0x68, 0x69], .text⟩)]
    Documents.serialize (list ++ map) =
        .ok (("---\n- web\n" : Text).flatMap Utf8.bytesOf ++
          ("---\nport: 80\n" : Text).flatMap Utf8.bytesOf) ∧
      ∃ r, assemble sets fragments [] = .ok r ∧
        Documents.serialize r.docs =
          .ok ((r.files.filter (·.kind = .yaml)).flatMap (·.data)) := by
  intro root nested mark list map sets fragments
  obtain ⟨append, -, assembled⟩ := written_together
  have written : ∀ p ∈ sets, ∃ bytes, Documents.serialize p.2 = .ok bytes := by
    simp only [sets, List.forall_mem_cons]
    exact ⟨⟨_, rfl⟩, ⟨_, rfl⟩, ⟨_, rfl⟩, nofun⟩
  obtain ⟨outputs, -, result⟩ := assemble_of_written fragments [] written
  have collections : ∀ p ∈ sets, ∀ d ∈ p.2, d.value.isCollection = true := by decide
  obtain ⟨-, -, together⟩ := assembled sets fragments [] _ collections result
  exact ⟨append list map _ _ (by decide) rfl rfl, _, result, together (by decide) (by decide)⟩

end Stencil
