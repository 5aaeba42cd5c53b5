import Mathlib.Logic.Relation
import TensorIR.Proofs.Body.Correspondence

/-!
# Shape inference is local to dependencies

One body is inferred twice, over different shapes for its parameters. An expression has the same
shapes after both inferences if the shapes are the same for all parameters that it depends on,
directly or through others (`inferShapes_local`). So the shape of a result is decided by the
parameters that the result reads, whatever else the body computes.

The body is its own counterpart here: every expression that depends on no parameter whose shapes
differ is paired with itself. What such an expression reads depends on no such parameter either, so
the pairing is closed under reading, which is all that the comparison of two bodies asks for.
-/

set_option autoImplicit false

namespace TensorIR.Body

/-- The expression reads an output of the producer. -/
def ReadsFrom (b : Body) (id producer : ExprId) : Prop :=
  ∃ e c k, b.expr id = .ok e ∧ c ∈ e.inputConnectors ∧ b.connector c = .ok k ∧
    k.sourcePort.expr = producer

/-- The expression is the other one, or what it reads depends on it. -/
def DependsOn (b : Body) : ExprId → ExprId → Prop := Relation.ReflTransGen b.ReadsFrom

/-- The lists have the same shapes for all parameters that the expression depends on. -/
def AgreeFor (b : Body) (params : List ExprId) (shapes shapes' : List Shape) (id : ExprId) : Prop :=
  ∀ (i : Nat) (param : ExprId), params[i]? = some param → b.DependsOn id param →
    shapes[i]? = shapes'[i]?

variable {b c c' : Body} {id : ExprId} {params results : List ExprId}
  {shapes shapes' out out' : List Shape}

theorem AgreeFor.of_readsFrom (h : b.AgreeFor params shapes shapes' id) {producer : ExprId}
    (hreads : b.ReadsFrom id producer) : b.AgreeFor params shapes shapes' producer :=
  fun i param hparam hdepends => h i param hparam (.head hreads hdepends)

/-- After both inferences the body corresponds to itself, as far as the lists agree. -/
theorem twins_of_given (h : Coherent b) (hparams : b.ByOrdinal .input params) (hc : Retouched b c)
    (hc' : Retouched b c') (hgiven : Given b c params shapes) (hgiven' : Given b c' params shapes')
    (hlength : shapes.length = params.length) :
    Twins (b.Itself (b.AgreeFor params shapes shapes')) Eq c c' where
  wired := h.toWired.retouched hc
  wired' := h.toWired.retouched hc'
  corresponds := by
    refine Corresponds.retouched (h.corresponds_self ?_ ?_) hc hc'
    · intro p e x k hagree he hx hk
      exact hagree.of_readsFrom
        ⟨e, x, k, expr_eq_ok_iff.mpr he, hx, connector_eq_ok_iff.mpr hk, rfl⟩
    · intro p e he _ operands operands' out hoperands hout
      rw [List.forall₂_eq_eq_eq] at hoperands
      subst hoperands
      exact ⟨out, hout, List.forall₂_same.mpr fun _ _ => rfl⟩
  params := by
    rintro p _ ⟨rfl, -, hagree⟩ hparam
    obtain ⟨i, shape, hi, hshape⟩ :=
      hparams.exists_given hlength ((hc.isParameter_iff p).mp hparam)
    have hshape' : shapes'[i]? = some shape := (hagree i p hi .refl).symm.trans hshape
    exact hgiven.outputsLike hparams hc hgiven' hparams hc' hi hi hshape hshape' rfl

/-- After both inferences an expression has the same shapes if the lists agree for it. -/
theorem Solved.shapeAt_local (h : Coherent b) (hparams : b.ByOrdinal .input params)
    (hc : Retouched b c) (hc' : Retouched b c') (hsolved : Solved b c params results shapes out)
    (hsolved' : Solved b c' params results shapes' out') (hlength : shapes.length = params.length)
    (hagree : b.AgreeFor params shapes shapes' id) (direction : Direction) (index : Nat) :
    c.shapeAt ⟨id, direction, index⟩ = c'.shapeAt ⟨id, direction, index⟩ := by
  have htwins := twins_of_given h hparams hc hc' hsolved.toGiven hsolved'.toGiven hlength
  cases he : b.exprs.get? id with
  | none =>
    exact shapeAt_congr ((hc.get?_eq_none he).trans (hc'.get?_eq_none he).symm)
  | some e =>
    obtain ⟨f, hf, -⟩ := hc.after he
    obtain ⟨f', hf', -⟩ := hc'.after he
    obtain ⟨hinputs, houtputs⟩ := htwins.shapes_of_settled
      (hsolved.settledIn hparams hc htwins.wired) (hsolved'.settledIn hparams hc' htwins.wired')
      ⟨rfl, ⟨e, he⟩, hagree⟩ hf hf'
    rw [List.forall₂_eq_eq_eq] at hinputs houtputs
    exact shapeAt_eq_of_shapes hf hf' hinputs houtputs direction index

/-- In every body that can come about and with any provider of strategies, two inferences that go
through leave the same shapes at all ports of an expression, provided that they were given the same
shapes for all parameters that the expression depends on. So what is answered for a result depends
on the shapes of these parameters only. -/
theorem inferShapes_local (h : Reachable b) :
    ∃ params results, b.ByOrdinal .input params ∧ b.ByOrdinal .output results ∧
      ∀ shapes shapes' out out', shapes.length = params.length → shapes'.length = params.length →
        (b.inferShapes shapes).1 = .ok out → (b.inferShapes shapes').1 = .ok out' →
          (∀ id, b.AgreeFor params shapes shapes' id → ∀ direction index,
            (b.inferShapes shapes).2.shapeAt ⟨id, direction, index⟩ =
              (b.inferShapes shapes').2.shapeAt ⟨id, direction, index⟩) ∧
          ∀ (j : Nat) result, results[j]? = some result →
            b.AgreeFor params shapes shapes' result → out[j]? = out'[j]? := by
  have hc := h.coherent
  have hparams : b.ByOrdinal .input (b.boundaryIds .input) := hc.byOrdinal_boundaryIds .input
  have hresults : b.ByOrdinal .output (b.boundaryIds .output) := hc.byOrdinal_boundaryIds .output
  refine ⟨_, _, hparams, hresults, fun shapes shapes' out out' hlength hlength' hok hok' => ?_⟩
  obtain ⟨hr, hsolved⟩ := hc.solved_of_ok hparams hresults (.inr hlength) hok
  obtain ⟨hr', hsolved'⟩ := hc.solved_of_ok hparams hresults (.inr hlength') hok'
  have hlocal : ∀ id, b.AgreeFor (b.boundaryIds .input) shapes shapes' id → ∀ direction index,
      (b.inferShapes shapes).2.shapeAt ⟨id, direction, index⟩ =
        (b.inferShapes shapes').2.shapeAt ⟨id, direction, index⟩ :=
    fun id => hsolved.shapeAt_local hc hparams hr hr' hsolved' hlength
  refine ⟨hlocal, fun j result hresult hagree => ?_⟩
  obtain ⟨shape, hj, hshape⟩ := hsolved.result hresult
  obtain ⟨shape', hj', hshape'⟩ := hsolved'.result hresult
  rw [hlocal result hagree, hshape'] at hshape
  rw [hj, hj', Except.ok.inj hshape]

/-! ## Two values apart -/

/-- Two parameters, a function of each, and both of these as results. -/
def apart : Body :=
  (((((empty none).after (.push (.make "x" (.parameter .scalar)) [])).after
    (.push (.make "y" (.parameter .scalar)) [])).after
    (.push (.make "f" (.unary .exp)) [⟨0⟩])).after
    (.push (.make "g" (.unary .neg)) [⟨1⟩])).after
    (.push (.make "u" .result) [⟨2⟩]) |>.after (.push (.make "v" .result) [⟨3⟩])

theorem reachable_apart : Reachable apart :=
  .step (.step (.step (.step (.step (.step (.empty none) _) _) _) _) _) _

/-- What belongs to the first value depends on nothing that belongs to the second. -/
theorem even_of_dependsOn_apart {id other : ExprId} (h : apart.DependsOn id other)
    (heven : id.index % 2 = 0) : other.index % 2 = 0 := by
  have hreads : ∀ p ∈ apart.exprs.entries, ∀ q ∈ apart.connectors.entries,
      q.1 ∈ p.2.inputConnectors → p.1.index % 2 = 0 → q.2.source.expr.index % 2 = 0 := by
    decide +kernel
  induction h with
  | refl => exact heven
  | tail _ hstep ih =>
    obtain ⟨e, c, k, he, hc, hk, rfl⟩ := hstep
    exact hreads _ (OrderedMap.get?_eq_some_iff.mp (expr_eq_ok_iff.mp he)) _
      (OrderedMap.get?_eq_some_iff.mp (connector_eq_ok_iff.mp hk)) hc ih

/-- Another shape for the second parameter does not show at the first result. -/
theorem inferShapes_local_apart :
    Reachable apart ∧ apart.ByOrdinal .input [⟨0⟩, ⟨1⟩] ∧ apart.ByOrdinal .output [⟨4⟩, ⟨5⟩] ∧
    (apart.inferShapes [⟨[.static 2]⟩, ⟨[.static 3]⟩]).1 =
      .ok [⟨[.static 2]⟩, ⟨[.static 3]⟩] ∧
    (apart.inferShapes [⟨[.static 2]⟩, ⟨[.dynamic]⟩]).1 = .ok [⟨[.static 2]⟩, ⟨[.dynamic]⟩] ∧
    apart.AgreeFor [⟨0⟩, ⟨1⟩] [⟨[.static 2]⟩, ⟨[.static 3]⟩] [⟨[.static 2]⟩, ⟨[.dynamic]⟩] ⟨4⟩ ∧
    (apart.inferShapes [⟨[.static 2]⟩, ⟨[.static 3]⟩]).2.shapeAt ⟨⟨4⟩, .input, 0⟩ =
      (apart.inferShapes [⟨[.static 2]⟩, ⟨[.dynamic]⟩]).2.shapeAt ⟨⟨4⟩, .input, 0⟩ := by
  obtain ⟨params, results, hparams, hresults, hlocal⟩ := inferShapes_local reachable_apart
  have hinputs : apart.boundaryIds .input = [⟨0⟩, ⟨1⟩] := by
    rw [boundaryIds, boundary_eq_insertionSort]
    rfl
  have houtputs : apart.boundaryIds .output = [⟨4⟩, ⟨5⟩] := by
    rw [boundaryIds, boundary_eq_insertionSort]
    rfl
  obtain rfl : params = [⟨0⟩, ⟨1⟩] := hinputs ▸ hparams.unique
    (reachable_apart.coherent.byOrdinal_boundaryIds .input)
  obtain rfl : results = [⟨4⟩, ⟨5⟩] := houtputs ▸ hresults.unique
    (reachable_apart.coherent.byOrdinal_boundaryIds .output)
  have hok : (apart.inferShapes [⟨[.static 2]⟩, ⟨[.static 3]⟩]).1 =
      .ok [⟨[.static 2]⟩, ⟨[.static 3]⟩] := by
    simp only [inferShapes, parameterIds, resultShapes, boundary_eq_insertionSort]
    rfl
  have hok' : (apart.inferShapes [⟨[.static 2]⟩, ⟨[.dynamic]⟩]).1 =
      .ok [⟨[.static 2]⟩, ⟨[.dynamic]⟩] := by
    simp only [inferShapes, parameterIds, resultShapes, boundary_eq_insertionSort]
    rfl
  have hagree : apart.AgreeFor [⟨0⟩, ⟨1⟩] [⟨[.static 2]⟩, ⟨[.static 3]⟩]
      [⟨[.static 2]⟩, ⟨[.dynamic]⟩] ⟨4⟩ := by
    intro i param hparam hdepends
    rcases i with _ | _ | i
    · rfl
    · obtain rfl := Option.some.inj hparam
      exact absurd (even_of_dependsOn_apart hdepends rfl) (by decide)
    · cases hparam
  exact ⟨reachable_apart, hparams, hresults, hok, hok', hagree,
    (hlocal _ _ _ _ rfl rfl hok hok').1 _ hagree .input 0⟩

end TensorIR.Body
