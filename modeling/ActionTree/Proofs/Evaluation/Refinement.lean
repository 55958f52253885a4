import ActionTree.Evaluation.Direct
import ActionTree.Evaluation.Machine
import ActionTree.Proofs.Run

/-!
# The stack machine computes values

Evaluation on a stack is evaluation without one: from every stack, an expression pushes its value and
nothing else.
-/

namespace ActionTree

variable {σ : Type}

namespace Machine

theorem pop_cons (v : Value) (stack : Stack) : (pop (v :: stack) : Run σ _) = pure (v, stack) := rfl

/-- As many values as were pushed come back in the order of pushing. -/
theorem popMany_pushed (values : List Value) (stack : Stack) :
    (popMany values.length (values.reverse ++ stack) : Run σ _) = pure (values, stack) := by
  have hlength : ¬ (values.reverse ++ stack).length < values.length := by simp
  have htake : (values.reverse ++ stack).take values.length = values.reverse := by
    rw [← List.length_reverse, List.take_left]
  have hdrop : (values.reverse ++ stack).drop values.length = stack := by
    rw [← List.length_reverse, List.drop_left]
  rw [popMany, if_neg hlength, htake, hdrop, List.reverse_reverse]

mutual

/-- An expression pushes its value, case by case as it is evaluated. -/
theorem push_eq (env : Environment σ) (e : Expr) (stack : Stack) :
    push env e stack = e.value env >>= fun v => pure (v :: stack) := by
  cases e with
  | literal v => simp only [push, Expr.value, pure_bind]
  | var name => simp only [push, Expr.value]
  | path name members => simp only [push, Expr.value]
  | assign name op e => simp only [push, Expr.value, push_eq env e, bind_assoc, pure_bind, pop_cons]
  | unary op e => simp only [push, Expr.value, push_eq env e, bind_assoc, pure_bind, pop_cons]
  | binary op l r =>
      simp only [push, Expr.value, push_eq env l, push_eq env r, bind_assoc, pure_bind, pop_cons]
  | and l r =>
      simp only [push, Expr.value, push_eq env l, push_eq env r, bind_assoc, pure_bind, pop_cons]
      refine bind_congr fun x => ?_
      split <;> simp only [bind_assoc, pure_bind]
  | or l r =>
      simp only [push, Expr.value, push_eq env l, push_eq env r, bind_assoc, pure_bind, pop_cons]
      refine bind_congr fun x => ?_
      split <;> simp only [bind_assoc, pure_bind]
  | coalesce l r =>
      simp only [push, Expr.value, push_eq env l, push_eq env r, bind_assoc, pure_bind, pop_cons]
      refine bind_congr fun x => ?_
      split <;> simp only [pure_bind]
  | ternary c t e =>
      simp only [push, Expr.value, push_eq env c, push_eq env t, push_eq env e, bind_assoc, pure_bind,
        pop_cons]
      refine bind_congr fun x => ?_
      split <;> rfl
  | cast type isArray e => simp only [push, Expr.value, push_eq env e, bind_assoc, pure_bind, pop_cons]
  | index target position =>
      simp only [push, Expr.value, push_eq env target, push_eq env position, bind_assoc, pure_bind,
        pop_cons]
  | member target name => simp only [push, Expr.value, push_eq env target, bind_assoc, pure_bind, pop_cons]
  | method target name args =>
      simp only [push, Expr.value, push_eq env target, bind_assoc, pure_bind]
      refine bind_congr fun t => ?_
      rw [pushAll_popMany env args (t :: stack)]
      simp only [pure_bind, pop_cons]
  | call name args =>
      simp only [push, Expr.value]
      rw [pushAll_popMany env args stack, bind_assoc]
  | property type name => simp only [push, Expr.value]
  | staticCall type name args =>
      simp only [push, Expr.value]
      rw [pushAll_popMany env args stack, bind_assoc]
  | array element items =>
      simp only [push, Expr.value]
      rw [pushAll_popMany env items stack, bind_assoc]
  | newArray element length =>
      simp only [push, Expr.value, push_eq env length, bind_assoc, pure_bind, pop_cons]
  | multi segments =>
      simp only [push, Expr.value, pushFirst_eq env segments stack, bind_assoc, pure_bind]
      refine bind_congr fun found => ?_
      cases found <;> rfl

/-- The values of some parts, pushed after those of others and popped together with them. -/
theorem pushAll_popMany_after (env : Environment σ) (es : List Expr) (before : List Value)
    (stack : Stack) :
    (pushAll env es (before.reverse ++ stack) >>= fun pushed =>
      popMany (before.length + es.length) pushed) =
      Expr.values env es >>= fun values => pure (before ++ values, stack) := by
  cases es with
  | nil =>
      simp only [pushAll, Expr.values, pure_bind, List.length_nil, Nat.add_zero, List.append_nil]
      exact popMany_pushed before stack
  | cons e rest =>
      have hrest (v : Value) := pushAll_popMany_after env rest (before ++ [v]) stack
      simp only [List.reverse_append, List.reverse_singleton, List.cons_append,
        List.length_append, List.length_singleton, List.append_assoc] at hrest
      simp only [pushAll, Expr.values, push_eq env e, bind_assoc, pure_bind, List.length_cons]
      refine bind_congr fun v => ?_
      rw [Nat.add_comm rest.length 1, ← Nat.add_assoc]
      exact hrest v

/-- The values of all parts are pushed and popped again. -/
theorem pushAll_popMany {α : Type} (env : Environment σ) (es : List Expr) (stack : Stack)
    (f : List Value × Stack → Run σ α) :
    (pushAll env es stack >>= fun pushed => popMany es.length pushed >>= f) =
      Expr.values env es >>= fun values => f (values, stack) := by
  have h := pushAll_popMany_after env es [] stack
  simp only [List.reverse_nil, List.nil_append, List.length_nil, Nat.zero_add] at h
  rw [← bind_assoc, h, bind_assoc]
  simp only [pure_bind]

theorem pushFirst_eq (env : Environment σ) (segments : List Segment) (stack : Stack) :
    pushFirst env segments stack =
      Segment.firstValue env segments >>= fun found => pure (found.map (· :: stack)) := by
  match segments with
  | [] => simp only [pushFirst, Segment.firstValue, pure_bind, Option.map_none]
  | .name n :: rest =>
      simp only [pushFirst, Segment.firstValue, bind_assoc]
      refine bind_congr fun found => ?_
      cases found with
      | some v => simp only [pure_bind, Option.map_some]
      | none => exact pushFirst_eq env rest stack
  | .expr e :: rest =>
      simp only [pushFirst, Segment.firstValue, push_eq env e, bind_assoc, pure_bind, pop_cons]
      refine bind_congr fun v => ?_
      split
      · exact pushFirst_eq env rest stack
      · simp only [pure_bind, Option.map_some]
  | .empty :: rest => simp only [pushFirst, Segment.firstValue, pure_bind, Option.map_some]
  | .fallback e :: rest =>
      simp only [pushFirst, Segment.firstValue, push_eq env e, bind_assoc, pure_bind, pop_cons,
        Option.map_some]

end

end Machine

theorem Expr.evaluate_eq_value (env : Environment σ) (e : Expr) : e.evaluate env = e.value env := by
  simp only [evaluate, Machine.push_eq, bind_assoc, pure_bind, bind_pure]

end ActionTree
