import TensorIR.Proofs.Pipeline.Running
import TensorIR.Proofs.Source.Reading

/-!
# Which statement an error of shape inference points at

When the shapes of an expression cannot be inferred, the report points at the first statement whose
node has the name of the node that failed (`spanOf`). Nodes are named after the names that are
bound, and where none is bound the name is made up from the operation and the position; a program
may use such a name itself. So the report points at the statement that failed exactly when no
earlier one has a node of that name (`span_of_stopsAt`).
-/

set_option autoImplicit false

namespace TensorIR

open Diagnostic (anyError)

namespace Body

variable {b : Body} {id : ExprId} {err : IrError}

/-! ## Deciding where inference stops -/

instance : Decidable (b.Settled id) :=
  match he : b.expr id with
  | .error _ => isFalse fun h => by
    obtain ⟨e, he', -⟩ := h
    cases he.symm.trans he'
  | .ok e =>
    decidable_of_iff (e.inputConnectors.map b.carriedShape = e.inputShapes.map .ok ∧
      e.attempt e.inputShapes = .ok e.outputShapes) <| by
    constructor
    · intro h
      exact ⟨e, he, fed_iff.mpr h.1, h.2⟩
    · intro h
      obtain ⟨e', he', hfed, hattempt⟩ := h
      obtain rfl := Except.ok.inj (he.symm.trans he')
      exact ⟨fed_iff.mp hfed, hattempt⟩

theorem fails_iff : b.Fails id err ↔ ∃ e, b.expr id = .ok e ∧
    ∃ operands, e.inputConnectors.mapM b.carriedShape = .ok operands ∧
      ∃ cause, e.attempt operands = .error cause ∧ err = .shapeInference e.node.name cause := by
  simp only [Fails, mapM_eq_ok_iff]
  constructor
  · intro h
    obtain ⟨e, operands, cause, he, hoperands, hattempt, herr⟩ := h
    exact ⟨e, he, operands, hoperands, cause, hattempt, herr⟩
  · intro h
    obtain ⟨e, he, operands, hoperands, cause, hattempt, herr⟩ := h
    exact ⟨e, operands, cause, he, hoperands, hattempt, herr⟩

end Body

/-- What is said of the value of a computation can be decided if the computation has none, or if it
can be decided of its value. -/
instance decidableExistsOk {ε α : Type} {outcome : Except ε α} {P : α → Prop}
    [∀ a, Decidable (P a)] : Decidable (∃ a, outcome = .ok a ∧ P a) :=
  match outcome with
  | .ok a => decidable_of_iff (P a) (by simp)
  | .error _ => isFalse (by simp)

instance decidableExistsError {ε α : Type} {outcome : Except ε α} {P : ε → Prop}
    [∀ err, Decidable (P err)] : Decidable (∃ err, outcome = .error err ∧ P err) :=
  match outcome with
  | .error err => decidable_of_iff (P err) (by simp)
  | .ok _ => isFalse (by simp)

namespace Body

variable {b : Body} {id : ExprId} {err : IrError}

instance : Decidable (b.Fails id err) := decidable_of_iff _ fails_iff.symm

/-- Inference over the shapes fails at the expression, after everything before it was settled. -/
structure StopsAt (b : Body) (shapes : List Shape) (id : ExprId) (err : IrError) : Prop where
  outcome : (b.inferShapes shapes).1 = .error err
  fails : (b.inferShapes shapes).2.Fails id err
  settled : ∀ other ∈ b.order.takeWhile (· ≠ id), other ∉ b.parameterIds →
    (b.inferShapes shapes).2.Settled other

instance {shapes : List Shape} : Decidable (b.StopsAt shapes id err) :=
  decidable_of_iff ((b.inferShapes shapes).1 = .error err ∧
    (b.inferShapes shapes).2.Fails id err ∧
    ∀ other ∈ b.order.takeWhile (· ≠ id), other ∉ b.parameterIds →
      (b.inferShapes shapes).2.Settled other)
    ⟨fun ⟨h₁, h₂, h₃⟩ => ⟨h₁, h₂, h₃⟩, fun ⟨h₁, h₂, h₃⟩ => ⟨h₁, h₂, h₃⟩⟩

end Body

namespace Compilation

variable {program : Program} {name : String} {k : Nat} {s : Statement}

/-- The span of a node that no earlier node shares its name with is that of its statement. -/
theorem spanOf_of_first (hs : program.statements[k]? = some s) (hname : s.nodeName k = name)
    (hfirst : ∀ j t, j < k → program.statements[j]? = some t → t.nodeName j ≠ name) :
    spanOf program name = s.span := by
  have hmem : (s, k) ∈ program.statements.zipIdx := List.mem_zipIdx_iff_getElem?.mpr hs
  unfold spanOf
  split
  next t i hfound =>
    obtain ⟨hsame, m, hm, heq, hearlier⟩ := List.find?_eq_some_iff_getElem.mp hfound
    rw [List.getElem_zipIdx, Nat.zero_add] at heq
    obtain ⟨rfl, rfl⟩ := Prod.mk.inj heq
    rw [List.length_zipIdx] at hm
    obtain ⟨hk, rfl⟩ := List.getElem?_eq_some_iff.mp hs
    rcases Nat.lt_trichotomy m k with hlt | rfl | hlt
    · exact absurd (of_decide_eq_true hsame) (hfirst m _ hlt (List.getElem?_eq_getElem hm))
    · rfl
    · have := hearlier k hlt
      rw [List.getElem_zipIdx, Nat.zero_add] at this
      simp [hname] at this
  next hnone =>
    have := List.find?_eq_none.mp hnone _ hmem
    simp [hname] at this

theorem exists_first (hs : program.statements[k]? = some s) (hname : s.nodeName k = name) :
    ∃ j t, j ≤ k ∧ program.statements[j]? = some t ∧ t.nodeName j = name ∧
      ∀ i u, i < j → program.statements[i]? = some u → u.nodeName i ≠ name := by
  induction k using Nat.strongRecOn generalizing s with
  | ind k ih =>
    by_cases hearlier : ∃ j t, j < k ∧ program.statements[j]? = some t ∧ t.nodeName j = name
    · obtain ⟨j, t, hj, ht, hsame⟩ := hearlier
      obtain ⟨i, u, hi, hu⟩ := ih j hj ht hsame
      exact ⟨i, u, Nat.le_trans hi (Nat.le_of_lt hj), hu⟩
    · refine ⟨k, s, Nat.le_refl k, hs, hname, fun j t hj ht hsame => hearlier ⟨j, t, hj, ht, hsame⟩⟩

/-- The report of a node points at its statement exactly when no earlier node has its name. -/
theorem spanOf_eq_iff {source : List Char} (hparse : (parse source).program = some program)
    (hs : program.statements[k]? = some s) :
    spanOf program (s.nodeName k) = s.span ↔
      ∀ j t, j < k → program.statements[j]? = some t → t.nodeName j ≠ s.nodeName k := by
  refine ⟨fun hspan j t hj ht hsame => ?_, fun hfirst => spanOf_of_first hs rfl hfirst⟩
  obtain ⟨i, u, hi, hu, hname, hfirst⟩ := exists_first ht hsame
  rw [spanOf_of_first hu hname hfirst] at hspan
  -- The statement found stands before the other one in the text, so its span is another.
  have hik : i < k := Nat.lt_of_le_of_lt hi hj
  obtain ⟨hi', rfl⟩ := List.getElem?_eq_some_iff.mp hu
  obtain ⟨hk', rfl⟩ := List.getElem?_eq_some_iff.mp hs
  have hordered := List.pairwise_iff_getElem.mp (ordered_statements hparse) i k hi' hk' hik
  rw [hspan] at hordered
  exact Nat.lt_irrefl _ hordered

/-- In the body of a program without errors, the node that fails is named after its statement. -/
theorem exists_cause_of_fails {b b' : Body} {err : IrError}
    (hclean : anyError program.model.diagnostics = false) (hs : program.statements[k]? = some s)
    (hmirrors : b.Mirrors program.model.model.nodes program.model.model.nodes.length)
    (hretouched : b.Retouched b') (hfails : b'.Fails ⟨k⟩ err) :
    ∃ cause, err = .shapeInference (s.nodeName k) cause := by
  obtain ⟨op, refs, -, -, hnode⟩ := program.built hs (program.nodeOf?_of_clean hclean hs)
  obtain ⟨e', operands, cause, he', -, -, rfl⟩ := hfails
  obtain ⟨e, he, hee'⟩ := hretouched.before (Body.expr_eq_ok_iff.mp he')
  obtain ⟨e₀, he₀, hfrom⟩ := hmirrors.expr hnode
  obtain rfl := Option.some.inj (he.symm.trans he₀)
  refine ⟨cause, ?_⟩
  rw [hee'.node, hfrom.node]
  rfl

/-- When shape inference fails at the expression of a statement, one error is reported. It points
at the statement exactly when no earlier statement has a node of the same name. -/
theorem span_of_stopsAt {source : List Char} (hparse : (parse source).program = some program)
    (hclean : anyError program.model.diagnostics = false) (provider : Option Provider)
    (shapes : List Shape) :
    ∃ b, Body.ofModel program.model.model provider = .ok b ∧
      ∀ k s err, program.statements[k]? = some s → b.StopsAt shapes ⟨k⟩ err →
        ∀ terminal : Pass, terminal = .inferShapes ∨ terminal = .validate →
          ∃ d, ((start program provider).run terminal shapes).failed = some .inferShapes ∧
            ((start program provider).run terminal shapes).log =
              [(.buildModel, program.model.diagnostics), (.lower, []), (.inferShapes, [d])] ∧
            d.severity = .error ∧ d.code = some .shapeInferenceFailed ∧ d.message = err.message ∧
            (d.span = s.span ↔
              ∀ j t, j < k → program.statements[j]? = some t → t.nodeName j ≠ s.nodeName k) := by
  obtain ⟨b, hb, hmirrors⟩ := Body.mirrors_ofModel program.wellFormed_model provider
  refine ⟨b, hb, fun k s err hs hstops terminal hterminal => ?_⟩
  obtain ⟨cause, rfl⟩ := exists_cause_of_fails hclean hs hmirrors
    (Body.retouched_inferShapes b shapes) hstops.fails
  obtain ⟨hfailed, hlog⟩ := run_of_inferShapes_error hclean hb hstops.outcome hterminal
  exact ⟨_, hfailed, hlog, rfl, rfl, rfl, spanOf_eq_iff hparse hs⟩

/-! ## A name that is bound and made up -/

/-- A program that binds a name to a node and multiplies a matrix that is not square by itself. -/
def squareText (name : String) : List Char :=
  ("x = Parameter[shape=[2, 3]]()\n" ++ name ++ " = Relu(x)\nMatMul(x, x)\n").toList

/-- What the text says if the name has eight letters. -/
def square (name : String) : Program where
  statements :=
    [⟨some ⟨"x", ⟨0, 1⟩⟩, ⟨"Parameter", ⟨4, 13⟩⟩, [⟨⟨"shape", ⟨14, 19⟩⟩,
        .dims [.fixed 2 ⟨21, 22⟩, .fixed 3 ⟨24, 25⟩] ⟨20, 26⟩⟩], [], ⟨0, 29⟩⟩,
      ⟨some ⟨name, ⟨30, 38⟩⟩, ⟨"Relu", ⟨41, 45⟩⟩, [], [⟨⟨"x", ⟨46, 47⟩⟩, 0⟩], ⟨30, 48⟩⟩,
      ⟨none, ⟨"MatMul", ⟨49, 55⟩⟩, [], [⟨⟨"x", ⟨56, 57⟩⟩, 0⟩, ⟨⟨"x", ⟨59, 60⟩⟩, 0⟩], ⟨49, 61⟩⟩]
  span := ⟨0, 62⟩

/-- The body of a program. -/
def lowered (p : Program) : Body :=
  match Body.ofModel p.model.model none with
  | .ok b => b
  | .error _ => .empty none

theorem ofModel_lowered (p : Program) : Body.ofModel p.model.model none = .ok (lowered p) := by
  obtain ⟨b, hb, -⟩ := Body.mirrors_ofModel p.wellFormed_model none
  rw [lowered, hb]

theorem stopsAt_square : ∀ name ∈ ["positive", "matmul_2"],
    anyError (square name).model.diagnostics = false ∧
      (lowered (square name)).StopsAt [] ⟨2⟩ (.shapeInference "matmul_2"
        (.incompatible ⟨[.static 2, .static 3]⟩ ⟨[.static 2, .static 3]⟩)) := by
  decide +kernel

/-- The product is to blame. -/
theorem span_of_stopsAt_square :
    (parse (squareText "positive")).program = some (square "positive") ∧
    anyError (square "positive").model.diagnostics = false ∧
    (lowered (square "positive")).StopsAt [] ⟨2⟩ (.shapeInference "matmul_2"
      (.incompatible ⟨[.static 2, .static 3]⟩ ⟨[.static 2, .static 3]⟩)) ∧
    ∃ d, ((start (square "positive") none).run .inferShapes []).log =
      [(.buildModel, (square "positive").model.diagnostics), (.lower, []), (.inferShapes, [d])] ∧
      d.span = ⟨49, 61⟩ := by
  have hparse : (parse (squareText "positive")).program = some (square "positive") := by
    decide +kernel
  obtain ⟨hclean, hstops⟩ := stopsAt_square "positive" (by decide)
  obtain ⟨b, hb, hspan⟩ := span_of_stopsAt hparse hclean none []
  obtain rfl := Except.ok.inj ((ofModel_lowered _).symm.trans hb)
  obtain ⟨d, -, hlog, -, -, -, hiff⟩ := hspan 2 _ _ rfl hstops .inferShapes (.inl rfl)
  refine ⟨hparse, hclean, hstops, d, hlog, hiff.mpr fun j t hj ht => ?_⟩
  obtain rfl | rfl : j = 0 ∨ j = 1 := by omega
  · obtain rfl := Option.some.inj ht
    decide +kernel
  · obtain rfl := Option.some.inj ht
    decide +kernel

/-- If the name that is bound is the one made up for the product, the blame is put on the node that
has the name. -/
theorem span_of_clash :
    (parse (squareText "matmul_2")).program = some (square "matmul_2") ∧
    anyError (square "matmul_2").model.diagnostics = false ∧
    Body.ofModel (square "matmul_2").model.model none = .ok (lowered (square "matmul_2")) ∧
    (lowered (square "matmul_2")).StopsAt [] ⟨2⟩ (.shapeInference "matmul_2"
      (.incompatible ⟨[.static 2, .static 3]⟩ ⟨[.static 2, .static 3]⟩)) ∧
    ∃ d, ((start (square "matmul_2") none).run .inferShapes []).log =
      [(.buildModel, (square "matmul_2").model.diagnostics), (.lower, []), (.inferShapes, [d])] ∧
      (square "matmul_2").statements[2]?.map Statement.span = some ⟨49, 61⟩ ∧
      d.span = ⟨30, 48⟩ := by
  obtain ⟨hclean, hstops⟩ := stopsAt_square "matmul_2" (by decide)
  obtain ⟨-, hlog⟩ :=
    run_of_inferShapes_error hclean (ofModel_lowered _) hstops.outcome (.inl rfl)
  exact ⟨by decide +kernel, hclean, ofModel_lowered _, hstops, _, hlog, rfl, by decide +kernel⟩

end Compilation

end TensorIR
