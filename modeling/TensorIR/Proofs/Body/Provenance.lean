import TensorIR.Proofs.Body.Abstraction
import TensorIR.Proofs.Body.Mirroring
import TensorIR.Proofs.Body.Steady
import TensorIR.Proofs.Inference.Provenance

/-!
# No dimension comes from nowhere

A dimension enters a body with a parameter, or by the rule of some other expression
(`Introduces`). After an inference there are no dimensions but these: every dimension at a port has
been introduced somewhere, and so has every dimension of a result (`BuiltIn.traced_of_ok`).
The body is set beside itself for this (`Twins`), where shapes are alike if they are the same and
all their dimensions have been introduced; a rule keeps this because it makes up no dimension
itself.

Before any inference less is known. Ports then have the shapes that the nodes declare, which are
those of parameters and otherwise scalars (`traced_ofModel`).
-/

set_option autoImplicit false

namespace TensorIR.Body

/-- A parameter has the dimension. -/
def ByParameter (b : Body) (d : Dim) : Prop :=
  ∃ id e, b.exprs.get? id = some e ∧ e.node.op.side? = some .input ∧ d.Among e.outputShapes

/-- The rule of an expression brings the dimension, other than that of a parameter, which is not
asked. -/
def ByRule (b : Body) (d : Dim) : Prop :=
  ∃ id e rule, b.exprs.get? id = some e ∧ e.node.op.side? ≠ some .input ∧
    ShapeRule.ofOp? e.node.op = some rule ∧ rule.Brings d

/-- The dimension enters the body somewhere. -/
def Introduces (b : Body) (d : Dim) : Prop := b.ByParameter d ∨ b.ByRule d

/-- All dimensions at the ports of the body have been introduced. -/
def Traced (b : Body) : Prop :=
  ∀ port shape, b.shapeAt port = .ok shape → ∀ d ∈ shape.dims, b.Introduces d

variable {b c : Body} {id : ExprId} {e : Expression} {shapes out : List Shape}

/-- It is enough to look at each expression. -/
theorem traced_iff : b.Traced ↔ ∀ id e, b.exprs.get? id = some e → ∀ d,
    d.Among e.inputShapes ∨ d.Among e.outputShapes → b.Introduces d := by
  constructor
  · rintro h id e he d (⟨shape, hshape, hd⟩ | ⟨shape, hshape, hd⟩)
    · obtain ⟨i, hi⟩ := List.mem_iff_getElem?.mp hshape
      exact h _ shape ((shapeAt_input_iff he).mpr hi) d hd
    · obtain ⟨i, hi⟩ := List.mem_iff_getElem?.mp hshape
      exact h _ shape ((shapeAt_output_iff he).mpr hi) d hd
  · rintro h ⟨id, direction, i⟩ shape hshape d hd
    cases he : b.exprs.get? id with
    | none =>
      rw [shapeAt, descriptor, expr, he] at hshape
      cases hshape
    | some e =>
      cases direction with
      | input =>
        exact h id e he d
          (.inl ⟨shape, List.mem_of_getElem? ((shapeAt_input_iff he).mp hshape), hd⟩)
      | output =>
        exact h id e he d
          (.inr ⟨shape, List.mem_of_getElem? ((shapeAt_output_iff he).mp hshape), hd⟩)

/-! ## After inference -/

theorem BuiltIn.retouched (hb : BuiltIn b) (hr : Retouched b c) : BuiltIn c where
  provider := hr.provider.trans hb.provider
  catalogue id e he := by
    obtain ⟨e₀, he₀, hretouched⟩ := hr.before (expr_eq_ok_iff.mp he)
    rw [hretouched.node]
    exact hb.catalogue id e₀ (expr_eq_ok_iff.mpr he₀)

/-- An expression answers with dimensions of its operands and with those that its rule brings. -/
theorem BuiltIn.introduces_of_attempt (hb : BuiltIn b) (h : Numbered b)
    (he : b.exprs.get? id = some e) (hside : e.node.op.side? ≠ some .input)
    {operands : List Shape} (hoperands : ∀ d : Dim, d.Among operands → b.Introduces d)
    (hok : e.attempt operands = .ok out) (d : Dim) (hd : d.Among out) : b.Introduces d := by
  obtain ⟨rule, hrule, hstrategy⟩ := hb.strategy h he
  obtain ⟨strategy, hfound, hout, -⟩ := Expression.attempt_eq_ok_iff.mp hok
  obtain rfl := Option.some.inj (hfound.symm.trans hstrategy)
  rcases ShapeRule.mem_dims_infer hout hd with hbrings | hd
  · exact .inr ⟨id, e, rule, he, hside, hrule, hbrings⟩
  · exact hoperands d hd

/-- Shapes are alike that are the same and have introduced dimensions only. -/
def SameIntroduced (b : Body) (s s' : Shape) : Prop := (∀ d ∈ s.dims, b.Introduces d) ∧ s = s'

theorem forall₂_sameIntroduced {shapes' : List Shape} :
    List.Forall₂ b.SameIntroduced shapes shapes' ↔
      (∀ d : Dim, d.Among shapes → b.Introduces d) ∧ shapes = shapes' := by
  show List.Forall₂ (fun s s' => (∀ d ∈ s.dims, b.Introduces d) ∧ s = s') shapes shapes' ↔ _
  rw [List.forall₂_and_left, List.forall₂_eq_eq_eq]
  refine and_congr_left fun _ => ⟨?_, fun h shape hshape d hd => h d ⟨shape, hshape, hd⟩⟩
  rintro h d ⟨shape, hshape, hd⟩
  exact h shape hshape d hd

theorem BuiltIn.twins_introduced (hb : BuiltIn b) (h : Coherent b) :
    Twins (b.Itself fun _ => True) b.SameIntroduced b b where
  wired := h.toWired
  wired' := h.toWired
  corresponds := by
    refine h.corresponds_self (fun _ _ _ _ _ _ _ _ => trivial) ?_
    intro id e he hside operands operands' out hlike hok
    obtain ⟨hoperands, rfl⟩ := forall₂_sameIntroduced.mp hlike
    have hout := hb.introduces_of_attempt h.toNumbered he hside hoperands hok
    exact ⟨out, hok, forall₂_sameIntroduced.mpr ⟨hout, rfl⟩⟩
  params := by
    rintro id _ ⟨rfl, -, -⟩ ⟨e, he, hside⟩
    refine ⟨e, e, he, he, forall₂_sameIntroduced.mpr ⟨fun d hd => ?_, rfl⟩⟩
    exact .inl ⟨id, e, he, hside, hd⟩

/-- In a settled body every dimension has been introduced. -/
theorem SettledIn.traced (hsettled : b.SettledIn b.order) (hb : BuiltIn b) (h : Coherent b) :
    b.Traced := by
  refine traced_iff.mpr fun id e he d hd => ?_
  obtain ⟨hinputs, houtputs⟩ := (hb.twins_introduced h).shapes_of_settled hsettled hsettled
    ⟨rfl, ⟨e, he⟩, trivial⟩ he he
  rcases hd with hd | hd
  · exact (forall₂_sameIntroduced.mp hinputs).1 d hd
  · exact (forall₂_sameIntroduced.mp houtputs).1 d hd

/-- An inference that goes through leaves a body in which every dimension has been introduced, and
answers with shapes that have no others. -/
theorem BuiltIn.traced_of_ok (hb : BuiltIn b) (h : Coherent b)
    (hok : b.inferShapes shapes = (.ok out, c)) :
    c.Traced ∧ ∀ d : Dim, d.Among out → c.Introduces d := by
  obtain ⟨hr, hsolved⟩ := h.solved_of_ok (h.byOrdinal_boundaryIds .input)
    (h.byOrdinal_boundaryIds .output) (h.stages_of_ok hok).1 (congrArg Prod.fst hok)
  rw [hok] at hr hsolved
  have hsettled : c.SettledIn c.order := fun id hid hparam => h.settled_of_ok hok hid hparam
  have htraced := hsettled.traced (hb.retouched hr) (h.retouched hr)
  refine ⟨htraced, ?_⟩
  rintro d ⟨shape, hshape, hd⟩
  -- The answer lists what reaches the results.
  have hmem : (.ok shape : Except IrError Shape) ∈ out.map .ok := List.mem_map_of_mem hshape
  rw [← hsolved.results] at hmem
  obtain ⟨id, -, hat⟩ := List.mem_map.mp hmem
  exact htraced _ shape hat d hd

theorem Retouched.byRule (hr : Retouched b c) {d : Dim} (hd : c.ByRule d) : b.ByRule d := by
  obtain ⟨id, e, rule, he, hside, hrule, hd⟩ := hd
  obtain ⟨e₀, he₀, hretouched⟩ := hr.before he
  rw [hretouched.node] at hside hrule
  exact ⟨id, e₀, rule, he₀, hside, hrule, hd⟩

/-- A dimension of a parameter was given for it, if shapes were given, or it had it before. -/
theorem Given.byParameter {params : List ExprId} (h : Given b c params shapes)
    (hparams : b.ByOrdinal .input params) (hr : Retouched b c)
    (hfits : shapes = [] ∨ shapes.length = params.length) {d : Dim} (hd : c.ByParameter d) :
    if shapes = [] then b.ByParameter d else d.Among shapes := by
  obtain ⟨id, e, he, hside, hd⟩ := hd
  obtain ⟨e₀, he₀, hretouched⟩ := hr.before he
  rw [hretouched.node] at hside
  have hparam : b.IsParameter id := ⟨e₀, he₀, hside⟩
  split
  next hnone =>
    subst hnone
    obtain ⟨f, hf, hkept⟩ :=
      h.outputShapes_kept hparams hr ((hparams.isParameter_iff id).mp hparam) he₀
    obtain rfl := Option.some.inj (he.symm.trans hf)
    exact ⟨id, e₀, he₀, hside, hkept ▸ hd⟩
  next hgiven =>
    obtain ⟨i, shape, hi, hshape⟩ := hparams.exists_given (hfits.resolve_left hgiven) hparam
    obtain ⟨f, hf, hout⟩ := h.outputShapes hparams hr hi hshape
    obtain rfl := Option.some.inj (he.symm.trans hf)
    obtain ⟨found, hfound, hd⟩ := hd
    rw [hout] at hfound
    obtain rfl := List.mem_singleton.mp hfound
    exact ⟨found, List.mem_of_getElem? hshape, hd⟩

/-- What is introduced after an inference comes from the rules that there were before it, and from
the shapes that were given or, if none were, from the parameters as they were. -/
theorem Coherent.introduces_of_ok (h : Coherent b) (hok : b.inferShapes shapes = (.ok out, c))
    {d : Dim} (hd : c.Introduces d) :
    (if shapes = [] then b.ByParameter d else d.Among shapes) ∨ b.ByRule d := by
  have hparams : b.ByOrdinal .input b.parameterIds := h.byOrdinal_boundaryIds .input
  obtain ⟨hfits, -⟩ := h.stages_of_ok hok
  obtain ⟨hr, hsolved⟩ := h.solved_of_ok hparams (h.byOrdinal_boundaryIds .output) hfits
    (congrArg Prod.fst hok)
  rw [hok] at hr hsolved
  exact hd.imp (hsolved.toGiven.byParameter hparams hr hfits) hr.byRule

/-! ## Before any inference -/

/-- Nothing is known of any operand. -/
def Unfed (b : Body) : Prop :=
  ∀ id e, b.exprs.get? id = some e → e.inputShapes = e.node.inputShapes

theorem Unfed.push (h : Unfed b) (node : Node) (inputs : List ConnectorId) :
    Unfed (b.push node inputs).2 := by
  rw [Body.push]
  rcases insert_cases b b.order.length node inputs with
    ⟨err, -, heq⟩ | ⟨-, -, heq⟩ | ⟨-, harity, e, b', heq, hinserted⟩
  · rw [heq]
    exact h
  · rw [heq]
    exact h
  · rw [heq]
    intro id e' he'
    rcases hinserted.expr_cases he' with ⟨-, rfl⟩ | ⟨-, he'⟩
    · rw [hinserted.made.inputShapes harity, hinserted.made.node]
    · exact h id e' he'

theorem unfed_ofModel {m : Model} {provider : Option Provider} (h : ofModel m provider = .ok b) :
    Unfed b :=
  lowerNodes_keeps (fun _ node inputs hb => hb.push node inputs)
    (fun id e he => by simp [empty] at he) h

theorem not_among_replicate_scalar (n : Nat) (d : Dim) :
    ¬ d.Among (List.replicate n Shape.scalar) := by
  rintro ⟨shape, hshape, hd⟩
  obtain rfl := (List.mem_replicate.mp hshape).2
  cases hd

/-- What operations declare about their outputs has no dimensions, parameters aside. -/
theorem side_of_among_declared {op : Op} {d : Dim} (hd : d.Among (Node.declared op)) :
    op.side? = some .input := by
  cases op with
  | parameter shape => rfl
  | _ => exact absurd hd (not_among_replicate_scalar _ d)

/-- The body of a model whose nodes declare no more than their operations do has no dimensions but
those of its parameters. -/
theorem traced_ofModel {m : Model} {provider : Option Provider}
    (h : ofModel m provider = .ok b)
    (hmade : ∀ id e, b.exprs.get? id = some e → e.node.outputShapes = Node.declared e.node.op) :
    b.Traced := by
  refine traced_iff.mpr fun id e he d hd => ?_
  rcases hd with hd | hd
  · rw [unfed_ofModel h id e he] at hd
    exact absurd hd (not_among_replicate_scalar _ d)
  · have hdeclared := hd
    rw [(asDeclared_ofModel h).shapes id e he, hmade id e he] at hdeclared
    exact .inl ⟨id, e, he, side_of_among_declared hdeclared, hd⟩

end TensorIR.Body
