import TensorIR.Proofs.Body.Correspondence
import TensorIR.Proofs.Inference.Monotone

/-!
# Dynamic dimensions abstract from run-time shapes

A body is inferred twice, once with shapes for its parameters and once with shapes these are
instances of. If the first inference goes through, so does the second, and every shape it finds
covers the one found by the first (`inferShapes_covers`): a dynamic dimension never leads to a
refusal that some run would not lead to, nor to a size that some run contradicts.

Both inferences are known by what they leave behind (`Stopped`, `Solved`), so the argument needs no
look at how they proceed. The body corresponds to itself (`Twins`), where like shapes are a shape and
one that it is an instance of; for this it is enough that the rule of every expression is monotone.
-/

set_option autoImplicit false

namespace TensorIR.Body

open Shape (InstanceOf)

/-- The operations are those of the catalogue, and nothing but the built-in rules is asked. -/
structure BuiltIn (b : Body) : Prop where
  provider : b.provider = none
  catalogue : ∀ id e, b.expr id = .ok e →
    ∀ name inputs outputs, e.node.op ≠ .custom name inputs outputs

/-- A port that is described in the second body is described in the first one by a shape that
covers it. -/
def CoversAt (s c : Body) (port : Port) : Prop :=
  ∀ shape, c.shapeAt port = .ok shape →
    ∃ shape', s.shapeAt port = .ok shape' ∧ shape.InstanceOf shape'

/-- All shapes of the second body are instances of those of the first. -/
def Covers (s c : Body) : Prop := ∀ port, s.CoversAt c port

variable {b c s : Body} {id : ExprId} {e : Expression} {operands operands' out : List Shape}

/-! ## Rules of expressions -/

theorem exists_rule {op : Op} (h : ∀ name inputs outputs, op ≠ .custom name inputs outputs) :
    ∃ rule, ShapeRule.ofOp? op = some rule := by
  cases op with
  | custom name inputs outputs => exact absurd rfl (h name inputs outputs)
  | _ => exact ⟨_, rfl⟩

theorem BuiltIn.strategy (hb : BuiltIn b) (h : Numbered b) (he : b.exprs.get? id = some e) :
    ∃ rule, ShapeRule.ofOp? e.node.op = some rule ∧ e.strategy = some rule.infer := by
  obtain ⟨rule, hrule⟩ := exists_rule (hb.catalogue id e (expr_eq_ok_iff.mpr he))
  refine ⟨rule, hrule, ?_⟩
  rw [(h.installed id e he).strategy, hb.provider]
  show (ShapeRule.ofOp? e.node.op).map ShapeRule.infer = _
  rw [hrule]
  rfl

theorem BuiltIn.attempt_mono (hb : BuiltIn b) (h : Numbered b) (he : b.exprs.get? id = some e)
    (hops : List.Forall₂ InstanceOf operands operands') (hok : e.attempt operands = .ok out) :
    ∃ out', e.attempt operands' = .ok out' ∧ List.Forall₂ InstanceOf out out' := by
  obtain ⟨rule, -, hrule⟩ := hb.strategy h he
  obtain ⟨strategy, hstrategy, hout, hcount⟩ := Expression.attempt_eq_ok_iff.mp hok
  obtain rfl := Option.some.inj (hstrategy.symm.trans hrule)
  obtain ⟨out', hout', hinstance⟩ := ShapeRule.infer_mono hops hout
  refine ⟨out', Expression.attempt_eq_ok_iff.mpr ⟨_, hrule, hout', ?_⟩, hinstance⟩
  rw [← hinstance.length_eq, hcount]

/-! ## Both inferences -/

/-- The first inference has left shapes for the parameters that are instances of those that the
second has left. -/
structure GivenInstances (b c s : Body) (params : List ExprId) : Prop where
  byOrdinal : b.ByOrdinal .input params
  shapes : ∀ id ∈ params, ∃ e shape shape', c.exprs.get? id = some e ∧ e.outputShapes = [shape] ∧
    s.shapeAt ⟨id, .output, 0⟩ = .ok shape' ∧ shape.InstanceOf shape'

theorem given_covered {params : List ExprId} (hparams : b.ByOrdinal .input params)
    (hc : Retouched b c) {shapes shapes' : List Shape} (hgiven : Given b c params shapes)
    (hgiven' : Given b s params shapes') (hshapes : List.Forall₂ InstanceOf shapes shapes')
    (hlength : shapes.length = params.length) : GivenInstances b c s params where
  byOrdinal := hparams
  shapes id hid := by
    obtain ⟨i, shape, hi, hshape⟩ :=
      hparams.exists_given hlength ((hparams.isParameter_iff id).mpr hid)
    obtain ⟨shape', hshape', hinstance⟩ := getElem?_of_forall₂ hshapes hshape
    obtain ⟨e, he, hout⟩ := hgiven.outputShapes hparams hc hi hshape
    exact ⟨e, shape, shape', he, hout, hgiven'.given i id shape' hi hshape', hinstance⟩

/-- The body corresponds to itself, since its rules are monotone. -/
theorem GivenInstances.twins {params : List ExprId} (hparams : GivenInstances b c s params)
    (hb : BuiltIn b) (h : Coherent b) (hc : Retouched b c) (hs : Retouched b s) :
    Twins (b.Itself fun _ => True) InstanceOf c s where
  wired := h.toWired.retouched hc
  wired' := h.toWired.retouched hs
  corresponds := Corresponds.retouched (h.corresponds_self (fun _ _ _ _ _ _ _ _ => trivial)
    fun _ _ he _ _ _ _ => hb.attempt_mono h.toNumbered he) hc hs
  params := by
    rintro p _ ⟨rfl, -, -⟩ hparam
    have hbefore : b.IsParameter p := (hc.isParameter_iff p).mp hparam
    obtain ⟨e, shape, shape', he, hout, hshape', hinstance⟩ :=
      hparams.shapes p ((hparams.byOrdinal.isParameter_iff p).mp hbefore)
    obtain ⟨e', he', hside⟩ := (hs.isParameter_iff p).mpr hbefore
    refine ⟨e, e', he, he', ?_⟩
    rw [hout, outputShapes_of_parameter he' hside hshape']
    exact .cons hinstance .nil

/-- Inference fails on no shapes of which it accepts an instance. -/
theorem Stopped.not_covered (hb : BuiltIn b) (h : Coherent b) (hc : Retouched b c)
    (hs : Retouched b s) {params : List ExprId} {shapes : List Shape} {err : IrError}
    (hstopped : Stopped b s params shapes err) (hparams : GivenInstances b c s params)
    (hsettled : ∀ id ∈ b.order, id ∉ params → c.Settled id) : False := by
  obtain ⟨before, q, hstop⟩ := hstopped.stoppedAt hparams.byOrdinal hs
  refine (hparams.twins hb h hc hs).not_stoppedAt (fun id hid hnot => ?_) (fun id hid => ?_) hstop
  · rw [hc.order] at hid
    refine hsettled id hid fun hmem => hnot ?_
    exact (hc.isParameter_iff id).mpr ((hparams.byOrdinal.isParameter_iff id).mpr hmem)
  · rw [hs.order] at hid
    exact ⟨id, rfl, (h.mem_order id).mp hid, trivial⟩

/-- Two inferences that went through, one over instances of the shapes of the other. -/
theorem Solved.covered (hb : BuiltIn b) (h : Coherent b) (hc : Retouched b c) (hs : Retouched b s)
    {params results : List ExprId} {shapes shapes' out' : List Shape}
    (hsolved : Solved b c params results shapes out)
    (hsolved' : Solved b s params results shapes' out') (hparams : GivenInstances b c s params) :
    List.Forall₂ InstanceOf out out' ∧ s.Covers c := by
  have htwins := hparams.twins hb h hc hs
  have hcovers : s.Covers c := by
    rintro ⟨id, direction, j⟩ shape hshape
    cases hec : c.exprs.get? id with
    | none =>
      rw [shapeAt, descriptor, expr, hec] at hshape
      cases hshape
    | some ec =>
      obtain ⟨e, he, -⟩ := hc.before hec
      obtain ⟨es, hes, -⟩ := hs.after he
      obtain ⟨hinputs, houtputs⟩ := htwins.shapes_of_settled
        (hsolved.settledIn hparams.byOrdinal hc htwins.wired)
        (hsolved'.settledIn hparams.byOrdinal hs htwins.wired') ⟨rfl, ⟨e, he⟩, trivial⟩ hec hes
      cases direction with
      | input =>
        obtain ⟨shape', hshape', hinstance⟩ :=
          getElem?_of_forall₂ hinputs ((shapeAt_input_iff hec).mp hshape)
        exact ⟨shape', (shapeAt_input_iff hes).mpr hshape', hinstance⟩
      | output =>
        obtain ⟨shape', hshape', hinstance⟩ :=
          getElem?_of_forall₂ houtputs ((shapeAt_output_iff hec).mp hshape)
        exact ⟨shape', (shapeAt_output_iff hes).mpr hshape', hinstance⟩
  refine ⟨forall₂_of_map_ok hsolved.results hsolved'.results ?_, hcovers⟩
  refine List.forall₂_same.mpr fun id _ shape shape' hshape hshape' => ?_
  obtain ⟨found, hfound, hinstance⟩ := hcovers _ shape hshape
  obtain rfl := Except.ok.inj (hshape'.symm.trans hfound)
  exact hinstance

/-- In a body of built-in operations, inference over shapes goes through whenever it does so over
instances of them, and all shapes it finds cover those that it finds there. -/
theorem inferShapes_covers (h : Reachable b) (hb : BuiltIn b) {concrete symbolic : List Shape}
    (hshapes : List.Forall₂ InstanceOf concrete symbolic)
    (hok : (b.inferShapes concrete).1 = .ok out) :
    ∃ out', (b.inferShapes symbolic).1 = .ok out' ∧ List.Forall₂ InstanceOf out out' ∧
      (b.inferShapes symbolic).2.Covers (b.inferShapes concrete).2 := by
  have hcoherent := h.coherent
  cases hshapes with
  | nil =>
    exact ⟨out, hok, Shape.forall₂_instanceOf_refl out, fun _ shape hshape =>
      ⟨shape, hshape, .refl shape⟩⟩
  | @cons shape shape' rest rest' hfirst hrest =>
    have hshapes : List.Forall₂ InstanceOf (shape :: rest) (shape' :: rest') := .cons hfirst hrest
    have hlength : (shape :: rest).length = b.parameterIds.length := by
      by_contra hne
      rw [inferShapes_mismatch (List.cons_ne_nil _ _) hne] at hok
      cases hok
    have hlength' : (shape' :: rest').length = b.parameterIds.length :=
      hshapes.length_eq.symm.trans hlength
    obtain ⟨c, hc, hcases⟩ := hcoherent.inferShapes_cases (.inr hlength)
    obtain ⟨s, hs, hcases'⟩ := hcoherent.inferShapes_cases (.inr hlength')
    rcases hcases with ⟨err, heq, -⟩ | ⟨found, heq, hsolved⟩
    · rw [heq] at hok
      cases hok
    · rw [heq] at hok ⊢
      obtain rfl := Except.ok.inj hok
      have hparams : b.ByOrdinal .input b.parameterIds := hcoherent.byOrdinal_boundaryIds .input
      rcases hcases' with ⟨err, heq', hstopped⟩ | ⟨found', heq', hsolved'⟩
      · have hgiven := given_covered hparams hc hsolved.toGiven hstopped.toGiven hshapes hlength
        exact (hstopped.not_covered hb hcoherent hc hs hgiven fun id hid =>
          hsolved.settled (hcoherent.toWired.retouched hc) (hc.order ▸ hid)).elim
      · have hgiven := given_covered hparams hc hsolved.toGiven hsolved'.toGiven hshapes hlength
        have hresults : c.boundaryIds .output = s.boundaryIds .output :=
          (((hcoherent.retouched hc).byOrdinal_boundaryIds .output).retouched hc).unique
            (((hcoherent.retouched hs).byOrdinal_boundaryIds .output).retouched hs)
        rw [hresults] at hsolved
        rw [heq']
        exact ⟨found', rfl, hsolved.covered hb hcoherent hc hs hsolved' hgiven⟩

/-- A matrix and a row are added, and each row of the sum is summed up. -/
def rowSums : Body :=
  ((((empty none).after (.push (.make "matrix" (.parameter .scalar)) [])).after
    (.push (.make "row" (.parameter .scalar)) [])).after
    (.push (.make "sum" (.binary .add)) [⟨0⟩, ⟨1⟩])).after
    (.push (.make "total" (.reduce .sum 1)) [⟨2⟩]) |>.after
    (.push (.make "out" .result) [⟨3⟩])

theorem reachable_rowSums : Reachable rowSums :=
  .step (.step (.step (.step (.step (.empty none) _) _) _) _) _

theorem builtIn_rowSums : BuiltIn rowSums where
  provider := rfl
  catalogue id e he name inputs outputs hop := by
    have hrules : ∀ p ∈ rowSums.exprs.entries, (ShapeRule.ofOp? p.2.node.op).isSome := by
      decide +kernel
    have hrule := hrules (id, e) (OrderedMap.get?_eq_some_iff.mp (expr_eq_ok_iff.mp he))
    rw [hop] at hrule
    cases hrule

/-- The number of rows need not be known, nor the length of the row. -/
theorem inferShapes_covers_rowSums :
    Reachable rowSums ∧ BuiltIn rowSums ∧
    List.Forall₂ InstanceOf [⟨[.static 2, .static 3]⟩, ⟨[.static 3]⟩]
      [⟨[.dynamic, .static 3]⟩, ⟨[.dynamic]⟩] ∧
    (rowSums.inferShapes [⟨[.static 2, .static 3]⟩, ⟨[.static 3]⟩]).1 =
      .ok [⟨[.static 2, .static 1]⟩] ∧
    (rowSums.inferShapes [⟨[.dynamic, .static 3]⟩, ⟨[.dynamic]⟩]).1 =
      .ok [⟨[.dynamic, .static 1]⟩] ∧
    (rowSums.inferShapes [⟨[.dynamic, .static 3]⟩, ⟨[.dynamic]⟩]).2.Covers
      (rowSums.inferShapes [⟨[.static 2, .static 3]⟩, ⟨[.static 3]⟩]).2 := by
  have hshapes : List.Forall₂ InstanceOf [⟨[.static 2, .static 3]⟩, ⟨[.static 3]⟩]
      [⟨[.dynamic, .static 3]⟩, ⟨[.dynamic]⟩] := by decide
  have hok : (rowSums.inferShapes [⟨[.static 2, .static 3]⟩, ⟨[.static 3]⟩]).1 =
      .ok [⟨[.static 2, .static 1]⟩] := by
    simp only [inferShapes, parameterIds, resultShapes, boundary_eq_insertionSort]
    rfl
  have hok' : (rowSums.inferShapes [⟨[.dynamic, .static 3]⟩, ⟨[.dynamic]⟩]).1 =
      .ok [⟨[.dynamic, .static 1]⟩] := by
    simp only [inferShapes, parameterIds, resultShapes, boundary_eq_insertionSort]
    rfl
  obtain ⟨out, hout, -, hcovers⟩ :=
    inferShapes_covers reachable_rowSums builtIn_rowSums hshapes hok
  exact ⟨reachable_rowSums, builtIn_rowSums, hshapes, hok, hok', hcovers⟩

end TensorIR.Body
