import Stencil.Proofs.Evaluation.Declaring
import Stencil.Proofs.Evaluation.Parallel

/-!
# Evaluating again

With deterministic collaborators, a complete evaluation answers the same
whatever was run before it, call for call. The decisions on output that are
left from earlier operations need not be those of a fresh tree, and if an
operation failed, its discovery may have stopped halfway. But a decision that
was made is about a file that declares schemas or data values. If such a file
is accessible, the evaluation takes it out of the output by itself before it
looks at any decision; and if it cannot, it does not come to evaluating files
at all.

## Main definitions

* `Loader.afterAll` — the session that earlier operations leave.

## Main results

* `Loader.evaluate_steady` — a complete evaluation agrees with itself from
  sessions that differ in what discovery decides.
* `Loader.afterAll_alike` — what earlier operations leave.
* `evaluate_again` — a complete evaluation answers the same after them.
-/

namespace Stencil

variable {σ : Type}

namespace Loader

variable {l : Loader σ} {idle busy : σ → σ → Prop} {T : Trace Nat → Trace Nat → Prop}

/-- Evaluating files agrees with itself under the same decisions. -/
private theorem eval_agrees (det : l.collaborators.Deterministic idle busy)
    (like : Trace.Likeness T) (values : DataValues) (libraryValues : List DataValues)
    (librarySchemas : List DocumentSchema) :
    (l.eval values libraryValues librarySchemas).Agrees
      (l.eval values libraryValues librarySchemas)
      (Session.Alike T (Marks.SameBut l.library.accessible fun _ => False) idle) Eq
      (Session.Alike T Marks.Unrelated idle) (Session.Alike T Marks.Unrelated idle) := by
  have roles : ∀ f ∈ l.library.accessible, ∀ m m',
      Marks.SameBut l.library.accessible (fun _ => False) m m' → f.file.role m = f.file.role m' := by
    intro f hf m m' same
    unfold File.role File.isForOutput
    rw [same f hf not_false]
  exact ((eval_steady det values libraryValues librarySchemas roles).inner like).mono id
    .unrelated .unrelated

/-- After its schemas, a complete evaluation agrees with itself if decisions
differ about files only that declare data values. -/
private theorem afterSchemas_agrees (det : l.collaborators.Deterministic idle busy)
    (reparses : l.collaborators.Reparses) (identified : Identified l.library.accessible)
    (like : Trace.Likeness T) (valuesOverlays : List DataValues) (collected : CollectedSchemas)
    (stop : Error → ServiceResult Evaluation)
    (finish : CollectedValues → EvalResult → ServiceResult Evaluation) :
    (l.afterSchemas valuesOverlays collected stop finish).Agrees
      (l.afterSchemas valuesOverlays collected stop finish)
      (Session.Alike T (Marks.SameBut l.library.accessible
        (Declares l.collaborators AnnotationName.dataValues)) idle) Eq
      (Session.Alike T Marks.Unrelated idle) (Session.Alike T Marks.Unrelated idle) := by
  refine Run.Agrees.bind_apply (((values_steady det valuesOverlays collected.schema).inner
    like).mono .unrelated id id) ?_
  rintro s s' ⟨op, outcome, warnings, spans⟩ _ s₁ s₁' hs first first' rfl states
  rcases outcome with e | found
  · exact .ok rfl states
  · have same : s₁.marks.SameBut l.library.accessible (fun _ => False) s₁'.marks :=
      PhaseRun.both_sameBut (.values valuesOverlays collected.schema) reparses identified
        (Run.ending_of_apply first) (Run.ending_of_apply first') (congrArg Prod.snd first)
        (congrArg Prod.snd first') (hs.marks.mono (List.Subset.refl _) fun _ => .inl)
    refine Run.Agrees.bind (eval_agrees det like _ _ _) ?_ s₁ s₁'
      ⟨states.traces, same, states.worlds⟩
    rintro ⟨op, e | result, warnings, spans⟩ _ rfl <;> exact .pure rfl

/-- **A complete evaluation** agrees with itself from sessions that differ in
what discovery decides. -/
theorem evaluate_steady (det : l.collaborators.Deterministic idle busy)
    (reparses : l.collaborators.Reparses) (identified : Identified l.library.accessible)
    (schemaOverlays : List DocumentSchema) (valuesOverlays : List DataValues) :
    (l.evaluate schemaOverlays valuesOverlays).Steady
      (Marks.SameBut l.library.accessible (DeclaresAny l.collaborators)) Marks.Unrelated idle := by
  refine ⟨_, _, _, rfl, fun T like => ?_⟩
  refine Run.Agrees.bind_apply (((schemas_steady det schemaOverlays).inner like).mono
    .unrelated id id) ?_
  rintro s s' ⟨op, outcome, warnings, spans⟩ _ s₁ s₁' hs first first' rfl states
  rcases outcome with e | collected
  · exact .ok rfl states
  · have same : s₁.marks.SameBut l.library.accessible
        (Declares l.collaborators AnnotationName.dataValues) s₁'.marks :=
      PhaseRun.both_sameBut (.schemas schemaOverlays) reparses identified
        (Run.ending_of_apply first) (Run.ending_of_apply first') (congrArg Prod.snd first)
        (congrArg Prod.snd first') hs.marks
    exact afterSchemas_agrees det reparses identified like valuesOverlays collected _ _ s₁ s₁'
      ⟨states.traces, same, states.worlds⟩

end Loader

/-! ## After earlier operations -/

/-- **After an operation**, the trace is as it was before, or the operation is
itself part of another one. -/
theorem Operation.restored {l : Loader σ} {idle busy : σ → σ → Prop}
    (det : l.collaborators.Deterministic idle busy) (reparses : l.collaborators.Reparses)
    (identified : Identified l.library.accessible) (op : Operation) {s : Session σ}
    (world : idle s.world s.world) : Trace.Restored s.trace (op.after l s).trace := by
  cases op with
  | phase p =>
      cases p with
      | schemas overlays => exact (l.schemas_steady det overlays).restored trivial world
      | values overlays schema => exact (l.values_steady det overlays schema).restored trivial world
      | eval values libraryValues librarySchemas =>
          refine (Loader.eval_steady (M := Eq) det values libraryValues librarySchemas ?_).restored
            rfl world
          rintro f - m _ rfl
          rfl
  | evaluate schemaOverlays valuesOverlays =>
      exact (Loader.evaluate_steady det reparses identified schemaOverlays valuesOverlays).restored
        (fun _ _ _ => rfl) world

namespace Loader

/-- The session after some operations on libraries, one after another. -/
def afterAll (l : Loader σ) (earlier : List (Library × Operation)) (s : Session σ) : Session σ :=
  earlier.foldl (fun s o => o.2.after (l.forLibrary o.1) s) s

/-- **After earlier operations** on libraries of a tree, nothing is decided
about files that declare neither schemas nor data values, and the trace is as
it was before, or the operations are part of another one. -/
theorem afterAll_alike {l : Loader σ} {busy : σ → σ → Prop}
    (det : l.collaborators.Deterministic (fun _ _ => True) busy)
    (identified : Identified l.context.root.all) {earlier : List (Library × Operation)}
    (within : ∀ o ∈ earlier, o.1.Within l.context.root) (s : Session σ) :
    Session.Alike Trace.Restored
      (Marks.SameBut l.context.root.all (DeclaresAny l.collaborators)) (fun _ _ => True) s
      (l.afterAll earlier s) := by
  have reparses := det.reparses
  refine List.foldlRecOn earlier _ ⟨.inl rfl, fun _ _ _ => rfl, trivial⟩ fun s' h o ho => ?_
  have sub : o.1.accessible ⊆ l.context.root.all := (within o ho).accessible_sublist.subset
  refine ⟨h.traces.trans ?_, ?_, trivial⟩
  · exact Operation.restored (l := l.forLibrary o.1) det reparses (identified.mono sub) o.2 trivial
  · exact Operation.after_sameBut (l := l.forLibrary o.1) reparses identified sub o.2 h.marks

end Loader

/-- **Evaluating again.** A complete evaluation of a library of the tree
answers the same after any earlier operations on libraries of the tree,
whether or not they succeeded, as it does before them, or ends in the same
fault; and it makes the same calls. The answers of collaborators may not
depend on what they were asked before, but an engine may remember what it was
called on since it was made. Files of the same identity are the same file. -/
theorem evaluate_again (l : Loader σ) (busy : σ → σ → Prop)
    (det : l.collaborators.Deterministic (fun _ _ => True) busy)
    (identified : Identified l.context.root.all) (earlier : List (Library × Operation))
    (within : ∀ o ∈ earlier, o.1.Within l.context.root) (lib : Library)
    (nested : lib.Within l.context.root) (schemaOverlays : List DocumentSchema)
    (valuesOverlays : List DataValues) (s : Session σ) :
    let s' := l.afterAll earlier s
    let evaluate := (l.forLibrary lib).evaluate schemaOverlays valuesOverlays
    let recorded := (l.forLibrary lib).recorded.evaluate schemaOverlays valuesOverlays
    (evaluate.apply s').1 = (evaluate.apply s).1 ∧
      (recorded.apply (s'.recorded [])).1 = (recorded.apply (s.recorded [])).1 ∧
      (recorded.apply (s'.recorded [])).2.world.calls =
        (recorded.apply (s.recorded [])).2.world.calls := by
  intro s' evaluate recorded
  have sub : lib.accessible ⊆ l.context.root.all := nested.accessible_sublist.subset
  have same := l.afterAll_alike det identified within s
  have plain := (Loader.evaluate_steady (l := l.forLibrary lib) det det.reparses
    (identified.mono sub) schemaOverlays valuesOverlays).outer s s'
    ⟨same.traces, same.marks.mono sub fun _ => id, trivial⟩
  have calls := (Loader.evaluate_steady (l := (l.forLibrary lib).recorded) det.recorded
    det.reparses.recorded (identified.mono sub) schemaOverlays valuesOverlays).outer
    (s.recorded []) (s'.recorded [])
    ⟨same.traces, same.marks.mono sub fun _ => DeclaresAny.recorded, trivial, rfl⟩
  exact ⟨plain.answer_eq.symm, calls.answer_eq.symm, calls.states.worlds.2.symm⟩

/-- A file that declares data values, beside one that is output. Of the earlier
operations, the first takes the file out of the output, and the second is an
evaluation like the last. -/
theorem evaluate_again_discovered :
    let settings : File := ⟨0, "values.yml", [], .yaml, true, none, none⟩
    let config : File := ⟨1, "config.yml", [], .yaml, true, none, none⟩
    let tree : Library := ⟨[], [], [settings, config], []⟩
    let declaration : Document :=
      ⟨⟨.unknown, [(AnnotationName.dataValues, ⟨[], []⟩)]⟩, .map (.ofPosition .unknown) []⟩
    let l : Loader Unit :=
      ⟨.ofRoot tree, {}, .plain fun f => if f.id = 0 then [declaration] else []⟩
    let s : Session Unit := ⟨[], .initial, ()⟩
    let earlier : List (Library × Operation) :=
      [(tree, .phase (.values [] .null)), (tree, .evaluate [] [])]
    let s' := l.afterAll earlier s
    settings.isForOutput s.marks = true ∧ settings.isForOutput s'.marks = false ∧
      (l.evaluate [] []).succeeds s = true ∧
      ((l.evaluate [] []).apply s').1 = ((l.evaluate [] []).apply s).1 := by
  intro settings config tree declaration l s earlier s'
  have det : l.collaborators.Deterministic (fun _ _ => True) (fun _ _ => True) :=
    Collaborators.plain_deterministic _
  have identified : Identified l.context.root.all := by decide
  have within : ∀ o ∈ earlier, o.1.Within l.context.root := by
    simp only [earlier, List.forall_mem_cons]
    exact ⟨.here, .here, List.forall_mem_nil _⟩
  refine ⟨rfl, by decide +kernel, by decide +kernel, ?_⟩
  exact (evaluate_again l (fun _ _ => True) det identified earlier within tree .here [] [] s).1

end Stencil
