import Stencil.Proofs.Evaluation.Declaring

/-!
# Searching a library for an annotation

The files that declare an annotation are found by parsing the template YAML
files of a library, in the order in which it makes them accessible. All of them
are parsed, each once, unless one stops the search: it cannot be parsed, or the
annotation stands further down than on a document. The files after that one are
not parsed. Either way the files that were found so far are taken out of the
output, and nothing is decided about any other file.

The rules of `Discovery` treat one file after another. Here the files that were
parsed come together, with the one that stops the search behind them.

## Main definitions

* `ParsedInTurn` — files are parsed one after another, and none of them stops the
  search.
* `StopsSearch` — a file stops the search.
* `carriers` — the files of which a document carries the annotation.
* `Search` — the two ways in which a search goes.

## Main results

* `Discovery.search` — discovery is a search through the template YAML files.
* `filesDeclaring_outcome` — what a search does.
-/

namespace Stencil

variable {σ : Type}

/-- Whether files are parsed one after another, each to some documents below
which the annotation does not stand. -/
inductive ParsedInTurn (c : Collaborators σ) (name : Text) :
    List Located → σ → List (List Document) → σ → Prop
  | nil {w : σ} : ParsedInTurn c name [] w [] w
  | cons {f : Located} {fs : List Located} {docs : List Document} {sets : List (List Document)}
      {w w₁ w₂ : σ} (parse : Action.apply (c.parse f.file) w = (.ok docs, w₁))
      (above : ∀ a n, ¬ Documents.Misplaced name docs a n)
      (rest : ParsedInTurn c name fs w₁ sets w₂) :
      ParsedInTurn c name (f :: fs) w (docs :: sets) w₂

/-- Whether a file stops the search, with the failure that it ends in. -/
inductive StopsSearch (c : Collaborators σ) (name : Text) (f : Located) (w : σ) :
    Failure → σ → Prop
  /-- The parser fails with an error of the library, which is left as it is. -/
  | error {e : Error} {cause : Option Fault} {w' : σ}
      (parse : Action.apply (c.parse f.file) w = (.error (.error e cause), w')) :
      StopsSearch c name f w (.error e cause) w'
  /-- The parser fails in any other way. -/
  | fault {x : Fault} {w' : σ}
      (parse : Action.apply (c.parse f.file) w = (.error (.fault x), w')) :
      StopsSearch c name f w
        (.error (.evaluation f.path ("parsing: " ++ x.message)) (some x)) w'
  /-- The annotation stands further down than on a document. -/
  | nested {docs : List Document} {n : Node} {w' : σ}
      (parse : Action.apply (c.parse f.file) w = (.ok docs, w'))
      (first : Documents.FirstMisplaced name docs n) :
      StopsSearch c name f w (.error (.annotationSyntax (Documents.misplaced name n)) none) w'

/-- The files among some, parsed to documents, of which a document carries an
annotation. -/
def carriers (name : Text) (files : List Located) (sets : List (List Document)) : List Located :=
  ((files.zip sets).filter fun p => p.2.any (·.mark.carries name)).map (·.1)

/-- How a search goes through template YAML files: its ending, the files found,
the files parsed, and the world it leaves. -/
inductive Search (c : Collaborators σ) (name : Text) (w : σ) :
    List Located → Except Failure Unit → List Located → List Located → σ → Prop
  /-- All files are parsed. -/
  | complete {files : List Located} {sets : List (List Document)} {w' : σ}
      (inTurn : ParsedInTurn c name files w sets w') :
      Search c name w files (.ok ()) (carriers name files sets) files w'
  /-- A file stops the search. -/
  | stopped {before after : List Located} {f : Located} {sets : List (List Document)}
      {x : Failure} {w₁ w' : σ} (inTurn : ParsedInTurn c name before w sets w₁)
      (stops : StopsSearch c name f w₁ x w') :
      Search c name w (before ++ f :: after) (.error x) (carriers name before sets)
        (before ++ [f]) w'

variable {c : Collaborators σ} {name : Text} {f : Located} {w w₁ w' : σ}

/-- The first file may stop the search. -/
theorem Search.stopped_first {files : List Located} {x : Failure}
    (stops : StopsSearch c name f w x w') :
    Search c name w (f :: files) (.error x) [] [f] w' := by
  have h : Search c name w ([] ++ f :: files) (.error x) (carriers name [] []) ([] ++ [f]) w' :=
    .stopped .nil stops
  exact h

/-- A file that is parsed to the end comes before the others. -/
theorem Search.cons {docs : List Document} {files found parsed : List Located}
    {r : Except Failure Unit} (parse : Action.apply (c.parse f.file) w = (.ok docs, w₁))
    (above : Documents.firstMisplaced name docs = none)
    (rest : Search c name w₁ files r found parsed w') :
    Search c name w (f :: files) r (carriers name [f] [docs] ++ found) (f :: parsed) w' := by
  have nowhere := Documents.firstMisplaced_eq_none above
  have carriers_cons : ∀ fs sets, carriers name (f :: fs) (docs :: sets) =
      carriers name [f] [docs] ++ carriers name fs sets := by
    intro fs sets
    rw [carriers, List.zip_cons_cons, ← List.singleton_append, List.filter_append, List.map_append]
    rfl
  cases rest with
  | complete inTurn => exact carriers_cons .. ▸ .complete (.cons parse nowhere inTurn)
  | stopped inTurn stops => exact carriers_cons .. ▸ .stopped (.cons parse nowhere inTurn) stops

/-- A file that cannot be parsed stops the search. -/
theorem StopsSearch.of_unparsed {x y : Failure}
    (parse : Action.apply (c.parse f.file) w = (.error x, w'))
    (wrapped : x.Becomes (fun m => .evaluation f.path ("parsing: " ++ m)) y) :
    StopsSearch c name f w y w' := by
  cases wrapped with
  | error e cause => exact .error parse
  | fault x => exact .fault parse

/-- **Discovery is a search** through the template YAML files among some. -/
theorem Discovery.search {files found parsed : List Located} {r : Except Failure Unit}
    (h : Discovery c name files w r found parsed w') :
    Search c name w (files.filter fun f => f.file.kind = .yaml && f.file.template) r found
      parsed w' := by
  have pos : ∀ {f : Located} {fs : List Located}, f.file.IsYamlTemplate →
      (f :: fs).filter (fun f => f.file.kind = .yaml && f.file.template) =
        f :: fs.filter fun f => f.file.kind = .yaml && f.file.template :=
    fun h => by simp [h.1, h.2]
  induction h with
  | nil => exact .complete .nil
  | skipped other _ ih =>
      rw [List.filter_cons_of_neg (by simpa [File.IsYamlTemplate] using other)]
      exact ih
  | unparsed candidate parse wrapped =>
      rw [pos candidate]
      exact .stopped_first (.of_unparsed parse wrapped)
  | misplaced candidate parse nested =>
      rw [pos candidate]
      exact .stopped_first (.nested parse (Documents.firstMisplaced_spec nested))
  | @passed f fs found parsed docs r w w₁ w₂ candidate parse above absent _ ih =>
      rw [pos candidate]
      have none : carriers name [f] [docs] = [] := by simp [carriers, absent]
      simpa [none] using ih.cons parse above
  | @found f fs found parsed docs r w w₁ w₂ candidate parse above present _ ih =>
      rw [pos candidate]
      have one : carriers name [f] [docs] = [f] := by simp [carriers, present]
      simpa [one] using ih.cons parse above

/-- **What a search does**, for any library, parser and annotation. The template
YAML files that the library makes accessible are parsed in their order, each once
and no others, up to the first one that stops the search. If there is none, the
answer is the files of which a document carries the annotation, in order. If there
is one, the search fails because of it. In both cases it is decided of the files
found that they are not output, and nothing is decided about other files. -/
theorem filesDeclaring_outcome (c : Collaborators σ) (name : Text) (lib : Library)
    (s : Session σ) (earlier : List Call) :
    let candidates := lib.accessible.filter fun f => f.file.kind = .yaml && f.file.template
    let run := (filesDeclaring c name lib).apply s
    let recorded := (filesDeclaring c.recorded name lib).apply (s.recorded earlier)
    ∃ before after sets w, candidates = before ++ after ∧
      ParsedInTurn c name before s.world sets w ∧
      (∀ f, run.2.marks.decision f =
        if ∃ g ∈ carriers name before sets, g.file.id = f.id then some false
        else s.marks.decision f) ∧
      recorded.1 = run.1 ∧
      ((after = [] ∧ run.1 = .ok (carriers name before sets) ∧
          recorded.2.world = ⟨w, earlier ++ parseCalls candidates⟩) ∨
        ∃ f rest x w', after = f :: rest ∧ StopsSearch c name f w x w' ∧ run.1 = .error x ∧
          recorded.2.world = ⟨w', earlier ++ parseCalls (before ++ [f])⟩) := by
  intro candidates run recorded
  obtain ⟨r, found, parsed, w', h⟩ := Discovery.total c name lib.accessible s.world
  obtain ⟨answer, marks, -⟩ := (h.yields s.marks).apply_eq
  obtain ⟨answer', -, world⟩ :=
    ((h.recorded earlier).yields s.marks).apply_eq (s := s.recorded earlier)
  have search : Search c name s.world candidates r found parsed w' := h.search
  have decided : ∀ f, run.2.marks.decision f =
      if ∃ g ∈ found, g.file.id = f.id then some false else s.marks.decision f := by
    intro f
    rw [← Marks.decision_claimAll, ← marks]
    rfl
  have same : recorded.1 = run.1 := answer'.trans answer.symm
  -- A search goes through any files; which ones these are has been said.
  generalize candidates = files at search ⊢
  cases search with
  | complete inTurn =>
      exact ⟨_, [], _, _, (List.append_nil _).symm, inTurn, decided, same,
        .inl ⟨rfl, answer, world⟩⟩
  | stopped inTurn stops =>
      exact ⟨_, _, _, _, rfl, inTurn, decided, same,
        .inr ⟨_, _, _, _, rfl, stops, answer, world⟩⟩

end Stencil
