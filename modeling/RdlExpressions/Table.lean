import RdlExpressions.Resolution

/-!
# The operator-category table as an evaluator

The width passes exist so that `get_value` truncates every operator to the width of the context it
sits in. The operator-category table says which context that is. An operand shares its parent's
context, or it starts a fresh one whose width is the maximum of 1 and its own minimal width; the
two operands of a relational operator share one such fresh context, and the value operand of a
width cast gets the maximum of the cast width and its own minimal width.

`tableMinWidth` and `tableValue` compute minimal widths and values from the table alone, without
attributes: `tableValue T w e` is the value of `e` in a context of width `w`, and a width cast's
width expression is evaluated wherever its width is needed. The operators compute as their
`get_value` does; only the widths come from the table.

The code's two passes and `get_value` compute these values on every tree in which each context
that `resolve_expr_width` opens is opened by a class that resolves its operands, from attributes
whose memoized cast widths agree with the table. Outside that fragment the code does not follow
the table: the `resolve_expr_width` of `_BoolExpr`, `TernaryExpr` and `_ExpShiftExpr` leaves
operands without a width.
-/

namespace RdlExpressions

/-!
# The fragment
-/

/-- `resolve_expr_width` of the node resolves its operands: the node is not a `_BoolExpr`, a
`TernaryExpr` or an `_ExpShiftExpr`. -/
def resolvesOperands : Expr -> Bool
  | .boolExpr .. | .ternary .. | .expShift .. => false
  | _ => true

mutual

/-- Every context that `resolve_expr_width` opens inside the tree is opened at a node that
resolves its operands. -/
def resolvesInside : Expr -> Bool
  | .binaryInt _ _ l r | .relational _ _ l r => resolvesInside l && resolvesInside r
  | .unaryInt _ _ n | .reduction _ _ n | .widthCast _ n _ | .boolCast _ n
  | .parameterRef _ _ _ (some n) | .assignmentCast _ n _ => resolvesInside n
  | .boolExpr _ _ l r =>
      (resolvesOperands l && resolvesInside l) && (resolvesOperands r && resolvesInside r)
  | .expShift _ _ l r => resolvesInside l && (resolvesOperands r && resolvesInside r)
  | .ternary _ i j k =>
      (resolvesOperands i && resolvesInside i) && (resolvesInside j && resolvesInside k)
  | .widthCastExpr _ v wExpr => resolvesInside v && (resolvesOperands wExpr && resolvesInside wExpr)
  | .instRef _ _ refElements => resolvesInsideRefElements refElements
  | .intLiteral .. | .builtinEnumLiteral .. | .stringLiteral .. | .parameterRef _ _ _ none => true

def resolvesInsideRefElements : List (Token × List Expr) -> Bool
  | [] => true
  | (_, arraySuffixes) :: rest =>
      resolvesInsideSuffixes arraySuffixes && resolvesInsideRefElements rest

def resolvesInsideSuffixes : List Expr -> Bool
  | [] => true
  | e :: es => (resolvesOperands e && resolvesInside e) && resolvesInsideSuffixes es

end

section

variable (T : ComponentTree)

/-!
# Widths and values by the table
-/

mutual

/-- The minimal width of a tree by the table: the width it needs on its own. -/
def tableMinWidth : Expr -> Except Diag Int
  | .intLiteral _ _ width => pure width
  | .binaryInt _ _ l r => do pure (max (← tableMinWidth l) (← tableMinWidth r))
  | .unaryInt _ _ n => tableMinWidth n
  | .expShift _ _ l _ => tableMinWidth l
  | .ternary _ _ j k => do pure (max (← tableMinWidth j) (← tableMinWidth k))
  | .widthCast _ _ wInt => pure wInt
  | .widthCastExpr _ _ wExpr => do
      let mw ← tableMinWidth wExpr
      let cv ← tableValue (max 1 mw) wExpr
      cv.toWidth
  | .parameterRef c name _ none =>
      .error (.fatal s!"Value for parameter '{name}' was never assigned" c)
  | .parameterRef _ _ _ (some x) => tableMinWidth x
  | .assignmentCast _ v _ => tableMinWidth v
  | .builtinEnumLiteral .. | .stringLiteral .. | .relational .. | .reduction .. | .boolExpr ..
  | .boolCast .. | .instRef .. => pure 1

/-- The value of a tree in a context of width `w`; an operand that starts its own context is
evaluated at the maximum of 1 and its minimal width. -/
def tableValue : Int -> Expr -> Except Diag Value
  | _, .intLiteral _ val _ => pure (.int val)
  | _, .builtinEnumLiteral _ val => pure (.enum val)
  | _, .stringLiteral _ val => pure (.str val)
  | w, .binaryInt o c l r => do
      let a ← (← tableValue w l).toInt
      let b ← (← tableValue w r).toInt
      let v ← o.apply c a b
      let v ← trunc (some w) v
      pure (.int v)
  | w, .unaryInt o _ n => do
      let a ← (← tableValue w n).toInt
      let v ← trunc (some w) (o.apply a)
      pure (.int v)
  | _, .relational o _ l r => do
      let ml ← tableMinWidth l
      let mr ← tableMinWidth r
      let a ← (← tableValue (max (max 1 ml) mr) l).toInt
      let b ← (← tableValue (max (max 1 ml) mr) r).toInt
      pure (.bool (o.apply a b))
  | _, .reduction .boolNot _ _ => pure (.bool false)
  | _, .reduction o _ n => do
      let m ← tableMinWidth n
      let a ← (← tableValue (max 1 m) n).toInt
      let v ← o.apply (some (max 1 m)) a
      pure v
  | _, .boolExpr o _ l r => do
      let ml ← tableMinWidth l
      let lv ← tableValue (max 1 ml) l
      let mr ← tableMinWidth r
      let rv ← tableValue (max 1 mr) r
      pure (.bool (o.apply lv.truthy rv.truthy))
  | w, .expShift o _ l r => do
      let a ← (← tableValue w l).toInt
      let mr ← tableMinWidth r
      let b ← (← tableValue (max 1 mr) r).toInt
      let v ← o.apply a b
      let v ← trunc (some w) v
      pure (.int v)
  | w, .ternary _ i j k => do
      let mi ← tableMinWidth i
      let iv ← tableValue (max 1 mi) i
      let jv ← tableValue w j
      let kv ← tableValue w k
      pure (if iv.truthy then jv else kv)
  | _, .widthCast c v wInt => do
      let m ← tableMinWidth v
      let n ← (← tableValue (max wInt m) v).toInt
      let r ← castTrunc c (some wInt) n
      pure (.int r)
  | _, .widthCastExpr c v wExpr => do
      let mw ← tableMinWidth wExpr
      let cv ← tableValue (max 1 mw) wExpr
      let cw ← cv.toWidth
      let m ← tableMinWidth v
      let n ← (← tableValue (max cw m) v).toInt
      let r ← castTrunc c (some cw) n
      pure (.int r)
  | _, .boolCast _ n => do
      let m ← tableMinWidth n
      let a ← (← tableValue (max 1 m) n).toInt
      pure (.bool (a != 0))
  | _, .parameterRef c name _ none =>
      .error (.fatal s!"Value for parameter '{name}' was never assigned" c)
  | _, .parameterRef _ _ _ (some x) => do
      let m ← tableMinWidth x
      let v ← tableValue (max 1 m) x
      pure v
  | _, .instRef refInst uplevelsToRef refElements => do
      let path ← tableRefElements refInst refElements
      pure (.componentRef uplevelsToRef path)
  | _, .assignmentCast _ v destType => do
      let m ← tableMinWidth v
      let vv ← tableValue (max 1 m) v
      pure (if destType = .bool then .bool vv.truthy else vv)

def tableRefElements : Nat -> List (Token × List Expr) ->
    Except Diag (List (String × Option (List Value)))
  | _, [] => pure []
  | cur, (nameToken, arraySuffixes) :: rest => do
      let name := nameToken.text
      let some c := T.getChildByName cur name | .error .runtimeError
      let idxList ← if T.isAddressableArray c then do
            let idx ← tableSuffixes arraySuffixes
            checkIndexRange idx (T.arrayDimensions c)
            pure (some idx)
          else pure none
      let path ← tableRefElements c rest
      pure ((name, idxList) :: path)

def tableSuffixes : List Expr -> Except Diag (List Value)
  | [] => pure []
  | e :: es => do
      let m ← tableMinWidth e
      let v ← tableValue (max 1 m) e
      let vs ← tableSuffixes es
      pure (v :: vs)

end

/-- The value of a tree that is the root of its own context. -/
def tableResolved (e : Expr) : Except Diag Value := do
  let m ← tableMinWidth T e
  tableValue T (max 1 m) e

def tableCastWidth (wExpr : Expr) : Except Diag Int := do
  let mw ← tableMinWidth T wExpr
  let cv ← tableValue T (max 1 mw) wExpr
  cv.toWidth

/-!
# Memoized cast widths

`get_min_eval_width` memoizes a width cast's cast width in its attributes, and every later call
reads the memo instead of the width expression. The table evaluates the width expression each
time, so the two agree as long as every memo holds the table's cast width. Below a memo nothing is
required, since no method reads a memoized width expression again.
-/

mutual

/-- Every cast width memoized in the attributes `s` of the tree is the table's. -/
def MemoConsistent : Expr -> State -> Prop
  | .binaryInt _ _ l r, s | .relational _ _ l r, s | .boolExpr _ _ l r, s | .expShift _ _ l r, s =>
      MemoConsistent l (s.op 0) ∧ MemoConsistent r (s.op 1)
  | .unaryInt _ _ n, s | .reduction _ _ n, s | .widthCast _ n _, s | .boolCast _ n, s
  | .parameterRef _ _ _ (some n), s | .assignmentCast _ n _, s => MemoConsistent n (s.op 0)
  | .ternary _ i j k, s =>
      MemoConsistent i (s.op 0) ∧ MemoConsistent j (s.op 1) ∧ MemoConsistent k (s.op 2)
  | .widthCastExpr _ v wExpr, s => MemoConsistent v (s.op 0) ∧
      match s.slot.castWidth with
      | some cw => tableCastWidth T wExpr = .ok cw
      | none => MemoConsistent wExpr (s.op 1)
  | .instRef _ _ refElements, s => MemoConsistentRefElements refElements s.ops
  | .intLiteral .., _ | .builtinEnumLiteral .., _ | .stringLiteral .., _
  | .parameterRef _ _ _ none, _ => True

def MemoConsistentRefElements : List (Token × List Expr) -> List State -> Prop
  | [], _ => True
  | (_, arraySuffixes) :: rest, ss =>
      MemoConsistentSuffixes arraySuffixes (ss.headD State.fresh).ops ∧
        MemoConsistentRefElements rest ss.tail

def MemoConsistentSuffixes : List Expr -> List State -> Prop
  | [], _ => True
  | e :: es, ss => MemoConsistent e (ss.headD State.fresh) ∧ MemoConsistentSuffixes es ss.tail

end

/-!
# Resolution as two phases

On a class that resolves its operands, `resolve_expr_width()` is `get_min_eval_width()` followed
by `propagate_eval_width(max(1, w))`: the bottom-up and top-down phases of the width algorithm. The
one difference is the `expr_eval_width` an `IntLiteral` keeps, which `get_value` does not read.
-/

theorem widthPass_none_decompose {e : Expr} (he : resolvesOperands e = true) {s s' : State}
    (h : widthPass T none e s = .ok s') :
    ∃ w s₀ s'', getMinEvalWidth T e s = .ok (w, s₀) ∧
      widthPass T (some (max 1 w)) e s₀ = .ok s'' ∧
      (s'' = s' ∨ ∃ c v width, e = .intLiteral c v width) := by
  match e, he with
  | .intLiteral c v width, _ => exact ⟨width, s, _, rfl, rfl, .inr ⟨c, v, width, rfl⟩⟩
  | .builtinEnumLiteral .., _ | .stringLiteral .., _ | .relational .., _ | .reduction .., _
  | .boolCast .., _ | .instRef .., _ => exact ⟨1, s, s', rfl, h, .inl rfl⟩
  | .widthCast _ _ wInt, _ => exact ⟨wInt, s, s', rfl, h, .inl rfl⟩
  | .binaryInt .., _ =>
      obtain ⟨wa, sa, ha, wb, sb, hb, sa', hpa, sb', hpb, rfl⟩ := defaultResolve_two_eq_ok.mp h
      refine ⟨max wa wb, _, _, bind_eq_of_ok ha (bind_eq_of_ok hb rfl), ?_, .inl rfl⟩
      have hw : max 1 (max wa wb) = max (max 1 wa) wb := by omega
      rw [hw]
      exact defaultPropagate_two_eq_ok.mpr ⟨sa', hpa, sb', hpb, rfl⟩
  | .unaryInt .., _ =>
      obtain ⟨wa, sa, ha, sa', hpa, rfl⟩ := defaultResolve_one_eq_ok.mp h
      exact ⟨wa, _, _, bind_eq_of_ok ha rfl, defaultPropagate_one_eq_ok.mpr ⟨sa', hpa, rfl⟩, .inl rfl⟩
  | .widthCastExpr .., _ =>
      obtain ⟨⟨cw, s₂⟩, hc, hv⟩ := bind_eq_ok.mp h
      exact ⟨cw, s₂, s', hc,
        bind_eq_of_ok (resolveCastWidth_of_castWidth (resolveCastWidth_castWidth hc)) hv, .inl rfl⟩
  | .parameterRef _ _ _ (some x), _ | .assignmentCast _ x _, _ =>
      obtain ⟨wa, sa, ha, sa', hpa, rfl⟩ := defaultResolve_one_eq_ok.mp h
      exact ⟨wa, _, _, bind_eq_of_ok ha rfl,
        defaultResolve_one_eq_ok.mpr ⟨wa, sa, getMinEvalWidth_idem T x ha, sa', hpa, rfl⟩, .inl rfl⟩
  | .parameterRef _ _ _ none, _ => nomatch h

/-!
# The code refines the table

`Refines T e` says that on `e` the code computes what the table does: `get_min_eval_width` returns
the table's minimal width, and after `propagate_eval_width(w)` the tree's `get_value` is the
table's value at `w`; both keep the memoized cast widths the table's.
-/

structure Refines (e : Expr) : Prop where
  minWidth : ∀ {s s₀ : State} {w : Int}, MemoConsistent T e s ->
    getMinEvalWidth T e s = .ok (w, s₀) -> tableMinWidth T e = .ok w ∧ MemoConsistent T e s₀
  propagate : ∀ {s s' : State} {W : Int}, MemoConsistent T e s ->
    widthPass T (some W) e s = .ok s' ->
      MemoConsistent T e s' ∧ ExceptRel (fun p v => p.1 = v) (getValue T e s') (tableValue T W e)

variable {T}

theorem Refines.resolve {e : Expr} (h : Refines T e) (he : resolvesOperands e = true)
    {s s' : State} (hs : MemoConsistent T e s) (hp : widthPass T none e s = .ok s') :
    MemoConsistent T e s' ∧ ∃ w, tableMinWidth T e = .ok w ∧
      ExceptRel (fun p v => p.1 = v) (getValue T e s') (tableValue T (max 1 w) e) := by
  obtain ⟨w, s₀, s'', hm, hp'', hs''⟩ := widthPass_none_decompose T he hp
  obtain ⟨hw, hs₀⟩ := h.minWidth hs hm
  obtain ⟨hc, hrel⟩ := h.propagate hs₀ hp''
  rcases hs'' with rfl | ⟨_, _, _, rfl⟩
  · exact ⟨hc, w, hw, hrel⟩
  · exact ⟨trivial, w, hw, rfl⟩

theorem Refines.defaultResolve_one {x : Expr} (h : Refines T x) {s s' : State}
    (hs : MemoConsistent T x (s.op 0))
    (hp : defaultResolve [⟨getMinEvalWidth T x, fun w => widthPass T (some w) x⟩] s = .ok s') :
    ∃ w sx, tableMinWidth T x = .ok w ∧
      s' = .mk { s.slot with exprEvalWidth := some (max 1 w) } [sx] ∧ MemoConsistent T x sx ∧
      ExceptRel (fun p v => p.1 = v) (getValue T x sx) (tableValue T (max 1 w) x) := by
  obtain ⟨w, sa, ha, sx, hpa, rfl⟩ := defaultResolve_one_eq_ok.mp hp
  obtain ⟨hw, hsa⟩ := h.minWidth hs ha
  exact ⟨w, sx, hw, rfl, h.propagate hsa hpa⟩

variable (T)

mutual

theorem refines_of_resolvesInside : ∀ (e : Expr), resolvesInside e = true -> Refines T e
  | .intLiteral .., _ | .builtinEnumLiteral .., _ | .stringLiteral .., _ => by
      refine ⟨fun hs h => ?_, fun _ _ => ⟨trivial, rfl⟩⟩
      obtain ⟨rfl, rfl⟩ := Prod.mk.inj (Except.ok.inj h)
      exact ⟨rfl, hs⟩
  | .binaryInt _ _ l r, he => by
      obtain ⟨hl, hr⟩ := Bool.and_eq_true_iff.mp he
      have ihl := refines_of_resolvesInside l hl
      have ihr := refines_of_resolvesInside r hr
      refine ⟨fun hs h => ?_, fun hs hp => ?_⟩
      · obtain ⟨⟨wl, sl⟩, hwl, h⟩ := bind_eq_ok.mp h
        obtain ⟨⟨wr, sr⟩, hwr, h⟩ := bind_eq_ok.mp h
        obtain ⟨rfl, rfl⟩ := Prod.mk.inj (Except.ok.inj h)
        obtain ⟨htl, hsl⟩ := ihl.minWidth hs.1 hwl
        obtain ⟨htr, hsr⟩ := ihr.minWidth hs.2 hwr
        exact ⟨bind_eq_of_ok htl (bind_eq_of_ok htr rfl), hsl, hsr⟩
      · obtain ⟨sl, hpl, sr, hpr, rfl⟩ := defaultPropagate_two_eq_ok.mp hp
        obtain ⟨hsl, hrl⟩ := ihl.propagate hs.1 hpl
        obtain ⟨hsr, hrr⟩ := ihr.propagate hs.2 hpr
        refine ⟨⟨hsl, hsr⟩, hrl.bind ?_⟩
        rintro ⟨lv, _⟩ _ - (rfl : lv = _)
        refine .bind_same fun a _ => hrr.bind ?_
        rintro ⟨rv, _⟩ _ - (rfl : rv = _)
        exact .bind_same fun b _ => .bind_same fun v _ => .bind_same fun y _ => rfl
  | .unaryInt _ _ n, he => by
      have ih := refines_of_resolvesInside n he
      refine ⟨fun hs h => ?_, fun hs hp => ?_⟩
      · obtain ⟨⟨wn, sn⟩, hwn, h⟩ := bind_eq_ok.mp h
        obtain ⟨rfl, rfl⟩ := Prod.mk.inj (Except.ok.inj h)
        exact ih.minWidth hs hwn
      · obtain ⟨sn, hpn, rfl⟩ := defaultPropagate_one_eq_ok.mp hp
        obtain ⟨hsn, hrn⟩ := ih.propagate hs hpn
        refine ⟨hsn, hrn.bind ?_⟩
        rintro ⟨nv, _⟩ _ - (rfl : nv = _)
        exact .bind_same fun a _ => .bind_same fun v _ => rfl
  | .relational _ _ l r, he => by
      obtain ⟨hl, hr⟩ := Bool.and_eq_true_iff.mp he
      have ihl := refines_of_resolvesInside l hl
      have ihr := refines_of_resolvesInside r hr
      refine ⟨fun hs h => ?_, fun hs hp => ?_⟩
      · obtain ⟨rfl, rfl⟩ := Prod.mk.inj (Except.ok.inj h)
        exact ⟨rfl, hs⟩
      · obtain ⟨wa, sa, ha, wb, sb, hb, sl, hpl, sr, hpr, rfl⟩ := defaultResolve_two_eq_ok.mp hp
        obtain ⟨hta, hsa⟩ := ihl.minWidth hs.1 ha
        obtain ⟨htb, hsb⟩ := ihr.minWidth hs.2 hb
        obtain ⟨hsl, hrl⟩ := ihl.propagate hsa hpl
        obtain ⟨hsr, hrr⟩ := ihr.propagate hsb hpr
        refine ⟨⟨hsl, hsr⟩, .bind_right hta (.bind_right htb (hrl.bind ?_))⟩
        rintro ⟨lv, _⟩ _ - (rfl : lv = _)
        refine .bind_same fun a _ => hrr.bind ?_
        rintro ⟨rv, _⟩ _ - (rfl : rv = _)
        exact .bind_same fun b _ => rfl
  | .reduction o _ n, he => by
      have ih := refines_of_resolvesInside n he
      refine ⟨fun hs h => ?_, fun hs hp => ?_⟩
      · obtain ⟨rfl, rfl⟩ := Prod.mk.inj (Except.ok.inj h)
        exact ⟨rfl, hs⟩
      · obtain ⟨w, sn, hw, rfl, hsn, hrn⟩ := ih.defaultResolve_one hs hp
        refine ⟨hsn, ?_⟩
        cases o
        case boolNot => rfl
        all_goals
          refine .bind_right hw (hrn.bind ?_)
          rintro ⟨nv, _⟩ _ - (rfl : nv = _)
          exact .bind_same fun a _ => .bind_same fun v _ => rfl
  | .boolExpr _ _ l r, he => by
      obtain ⟨hl, hr⟩ := Bool.and_eq_true_iff.mp he
      obtain ⟨hlo, hli⟩ := Bool.and_eq_true_iff.mp hl
      obtain ⟨hro, hri⟩ := Bool.and_eq_true_iff.mp hr
      have ihl := refines_of_resolvesInside l hli
      have ihr := refines_of_resolvesInside r hri
      refine ⟨fun hs h => ?_, fun hs hp => ?_⟩
      · obtain ⟨rfl, rfl⟩ := Prod.mk.inj (Except.ok.inj h)
        exact ⟨rfl, hs⟩
      · obtain ⟨sl, hpl, hp⟩ := bind_eq_ok.mp hp
        obtain ⟨sr, hpr, hp⟩ := bind_eq_ok.mp hp
        obtain rfl := Except.ok.inj hp
        obtain ⟨hsl, ml, hml, hrl⟩ := ihl.resolve hlo hs.1 hpl
        obtain ⟨hsr, mr, hmr, hrr⟩ := ihr.resolve hro hs.2 hpr
        refine ⟨⟨hsl, hsr⟩, .bind_right hml (hrl.bind ?_)⟩
        rintro ⟨lv, _⟩ _ - (rfl : lv = _)
        refine .bind_right hmr (hrr.bind ?_)
        rintro ⟨rv, _⟩ _ - (rfl : rv = _)
        rfl
  | .expShift _ _ l r, he => by
      obtain ⟨hl, hr⟩ := Bool.and_eq_true_iff.mp he
      obtain ⟨hro, hri⟩ := Bool.and_eq_true_iff.mp hr
      have ihl := refines_of_resolvesInside l hl
      have ihr := refines_of_resolvesInside r hri
      refine ⟨fun hs h => ?_, fun hs hp => ?_⟩
      · obtain ⟨⟨wl, sl⟩, hwl, h⟩ := bind_eq_ok.mp h
        obtain ⟨rfl, rfl⟩ := Prod.mk.inj (Except.ok.inj h)
        obtain ⟨htl, hsl⟩ := ihl.minWidth hs.1 hwl
        exact ⟨htl, hsl, hs.2⟩
      · obtain ⟨sl, hpl, hp⟩ := bind_eq_ok.mp hp
        obtain ⟨sr, hpr, hp⟩ := bind_eq_ok.mp hp
        obtain rfl := Except.ok.inj hp
        obtain ⟨hsl, hrl⟩ := ihl.propagate hs.1 hpl
        obtain ⟨hsr, mr, hmr, hrr⟩ := ihr.resolve hro hs.2 hpr
        refine ⟨⟨hsl, hsr⟩, hrl.bind ?_⟩
        rintro ⟨lv, _⟩ _ - (rfl : lv = _)
        refine .bind_same fun a _ => .bind_right hmr (hrr.bind ?_)
        rintro ⟨rv, _⟩ _ - (rfl : rv = _)
        exact .bind_same fun b _ => .bind_same fun v _ => .bind_same fun y _ => rfl
  | .ternary _ i j k, he => by
      obtain ⟨hi, hjk⟩ := Bool.and_eq_true_iff.mp he
      obtain ⟨hio, hii⟩ := Bool.and_eq_true_iff.mp hi
      obtain ⟨hj, hk⟩ := Bool.and_eq_true_iff.mp hjk
      have ihi := refines_of_resolvesInside i hii
      have ihj := refines_of_resolvesInside j hj
      have ihk := refines_of_resolvesInside k hk
      refine ⟨fun hs h => ?_, fun hs hp => ?_⟩
      · obtain ⟨⟨wj, sj⟩, hwj, h⟩ := bind_eq_ok.mp h
        obtain ⟨⟨wk, sk⟩, hwk, h⟩ := bind_eq_ok.mp h
        obtain ⟨rfl, rfl⟩ := Prod.mk.inj (Except.ok.inj h)
        obtain ⟨htj, hsj⟩ := ihj.minWidth hs.2.1 hwj
        obtain ⟨htk, hsk⟩ := ihk.minWidth hs.2.2 hwk
        exact ⟨bind_eq_of_ok htj (bind_eq_of_ok htk rfl), hs.1, hsj, hsk⟩
      · obtain ⟨sj, hpj, hp⟩ := bind_eq_ok.mp hp
        obtain ⟨sk, hpk, hp⟩ := bind_eq_ok.mp hp
        obtain ⟨si, hpi, hp⟩ := bind_eq_ok.mp hp
        obtain rfl := Except.ok.inj hp
        obtain ⟨hsi, mi, hmi, hri⟩ := ihi.resolve hio hs.1 hpi
        obtain ⟨hsj, hrj⟩ := ihj.propagate hs.2.1 hpj
        obtain ⟨hsk, hrk⟩ := ihk.propagate hs.2.2 hpk
        refine ⟨⟨hsi, hsj, hsk⟩, .bind_right hmi (hri.bind ?_)⟩
        rintro ⟨iv, _⟩ _ - (rfl : iv = _)
        refine hrj.bind ?_
        rintro ⟨jv, _⟩ _ - (rfl : jv = _)
        refine hrk.bind ?_
        rintro ⟨kv, _⟩ _ - (rfl : kv = _)
        rfl
  | .widthCast _ v _, he => by
      have ih := refines_of_resolvesInside v he
      refine ⟨fun hs h => ?_, fun hs hp => ?_⟩
      · obtain ⟨rfl, rfl⟩ := Prod.mk.inj (Except.ok.inj h)
        exact ⟨rfl, hs⟩
      · obtain ⟨wa, sa, ha, sv, hpv, rfl⟩ := resolveCastValue_eq_ok.mp hp
        obtain ⟨hta, hsa⟩ := ih.minWidth hs ha
        obtain ⟨hsv, hrv⟩ := ih.propagate hsa hpv
        refine ⟨hsv, .bind_right hta (hrv.bind ?_)⟩
        rintro ⟨vv, _⟩ _ - (rfl : vv = _)
        exact .bind_same fun n _ => .bind_same fun r _ => rfl
  | .widthCastExpr c v wExpr, he => by
      obtain ⟨hv, hw⟩ := Bool.and_eq_true_iff.mp he
      obtain ⟨hwo, hwi⟩ := Bool.and_eq_true_iff.mp hw
      have ihv := refines_of_resolvesInside v hv
      have ihw := refines_of_resolvesInside wExpr hwi
      have hmin : ∀ {s s₀ : State} {w : Int}, MemoConsistent T (.widthCastExpr c v wExpr) s ->
          getMinEvalWidth T (.widthCastExpr c v wExpr) s = .ok (w, s₀) ->
          tableCastWidth T wExpr = .ok w ∧ MemoConsistent T (.widthCastExpr c v wExpr) s₀ := by
        intro s s₀ w hs h
        cases hc : s.slot.castWidth with
        | some cw =>
            obtain ⟨rfl, rfl⟩ :=
              Prod.mk.inj (Except.ok.inj (h.symm.trans (resolveCastWidth_of_castWidth hc)))
            have hsw := hs.2
            rw [hc] at hsw
            exact ⟨hsw, hs⟩
        | none =>
            have hsw := hs.2
            rw [hc] at hsw
            obtain ⟨⟨cv, se⟩, hF, h⟩ := bind_eq_ok.mp ((resolveCastWidth_of_none hc).symm.trans h)
            obtain ⟨se₁, hr, hg⟩ := bind_eq_ok.mp hF
            obtain ⟨cw, hcw, h⟩ := bind_eq_ok.mp h
            obtain ⟨rfl, rfl⟩ := Prod.mk.inj (Except.ok.inj h)
            obtain ⟨-, mw, hmw, hrel⟩ := ihw.resolve hwo hsw hr
            rw [hg] at hrel
            obtain ⟨_, htv, rfl⟩ := hrel.ok_left
            have htc : tableCastWidth T wExpr = .ok cw := bind_eq_of_ok hmw (bind_eq_of_ok htv hcw)
            exact ⟨htc, hs.1, htc⟩
      refine ⟨hmin, fun hs hp => ?_⟩
      obtain ⟨⟨cw, s₂⟩, hc, hp⟩ := bind_eq_ok.mp hp
      obtain ⟨htc, hs₂⟩ := hmin hs hc
      have hcw := resolveCastWidth_castWidth hc
      obtain ⟨wa, sa, ha, sv, hpv, rfl⟩ := resolveCastValue_eq_ok.mp hp
      obtain ⟨hta, hsa⟩ := ihv.minWidth hs₂.1 ha
      obtain ⟨hsv, hrv⟩ := ihv.propagate hsa hpv
      obtain ⟨mw, hmw, hcv⟩ := bind_eq_ok.mp htc
      obtain ⟨cv, hcv, hcv'⟩ := bind_eq_ok.mp hcv
      refine ⟨⟨hsv, ?_⟩, .bind_right hmw (.bind_right hcv (.bind_right hcv'
        (.bind_right hta (hrv.bind ?_))))⟩
      · simp only [State.slot_mk, hcw]
        exact htc
      · rintro ⟨vv, _⟩ _ - (rfl : vv = _)
        exact .bind_same fun n _ => .bind_eq (congrArg (castTrunc c · n) hcw) fun r _ => rfl
  | .boolCast _ n, he => by
      have ih := refines_of_resolvesInside n he
      refine ⟨fun hs h => ?_, fun hs hp => ?_⟩
      · obtain ⟨rfl, rfl⟩ := Prod.mk.inj (Except.ok.inj h)
        exact ⟨rfl, hs⟩
      · obtain ⟨w, sn, hw, rfl, hsn, hrn⟩ := ih.defaultResolve_one hs hp
        refine ⟨hsn, .bind_right hw (hrn.bind ?_)⟩
        rintro ⟨nv, _⟩ _ - (rfl : nv = _)
        exact .bind_same fun a _ => rfl
  | .parameterRef _ _ _ none, _ => ⟨fun _ h => (nomatch h), fun _ hp => (nomatch hp)⟩
  | .parameterRef _ _ _ (some x), he | .assignmentCast _ x _, he => by
      have ih := refines_of_resolvesInside x he
      refine ⟨fun hs h => ?_, fun hs hp => ?_⟩
      · obtain ⟨⟨wx, sx⟩, hwx, h⟩ := bind_eq_ok.mp h
        obtain ⟨rfl, rfl⟩ := Prod.mk.inj (Except.ok.inj h)
        exact ih.minWidth hs hwx
      · obtain ⟨w, sx, hw, rfl, hsx, hrx⟩ := ih.defaultResolve_one hs hp
        refine ⟨hsx, .bind_right hw (hrx.bind ?_)⟩
        rintro ⟨xv, _⟩ _ - (rfl : xv = _)
        rfl
  | .instRef _ _ els, he => by
      refine ⟨fun hs h => ?_, fun hs hp => ?_⟩
      · obtain ⟨rfl, rfl⟩ := Prod.mk.inj (Except.ok.inj h)
        exact ⟨rfl, hs⟩
      · obtain ⟨segs, hsegs, hp⟩ := bind_eq_ok.mp hp
        obtain rfl := Except.ok.inj hp
        obtain ⟨hss, hrel⟩ := refElements_refine els he hs hsegs
        refine ⟨hss, (hrel _).bind ?_⟩
        rintro ⟨path, _⟩ _ - (rfl : path = _)
        rfl

theorem refElements_refine : ∀ (els : List (Token × List Expr)),
    resolvesInsideRefElements els = true -> ∀ {ss ss' : List State},
      MemoConsistentRefElements T els ss -> widthPassRefElements T els ss = .ok ss' ->
      MemoConsistentRefElements T els ss' ∧ ∀ cur, ExceptRel (fun p v => p.1 = v)
        (getValueRefElements T cur els ss') (tableRefElements T cur els)
  | [], _, _, _, _, h => by
      obtain rfl := Except.ok.inj h
      exact ⟨trivial, fun _ => rfl⟩
  | (tok, sufs) :: rest, he, _, _, hs, h => by
      obtain ⟨hsufs, hrest⟩ := Bool.and_eq_true_iff.mp he
      obtain ⟨sufStates, hsuf, h⟩ := bind_eq_ok.mp h
      obtain ⟨restStates, hr, h⟩ := bind_eq_ok.mp h
      obtain rfl := Except.ok.inj h
      obtain ⟨hss, hrs⟩ := suffixes_refine sufs hsufs hs.1 hsuf
      obtain ⟨hsr, hrr⟩ := refElements_refine rest hrest hs.2 hr
      refine ⟨⟨hss, hsr⟩, fun cur => ?_⟩
      simp only [getValueRefElements, tableRefElements]
      cases hc : T.getChildByName cur tok.text with
      | none => rfl
      | some c =>
          by_cases harr : T.isAddressableArray c = true
          · simp only [harr, if_true]
            refine hrs.bind ?_
            rintro ⟨idx, _⟩ _ - (rfl : idx = _)
            refine .bind_same fun _ _ => (hrr c).bind ?_
            rintro ⟨path, _⟩ _ - (rfl : path = _)
            rfl
          · simp only [harr, ite_false, pure_bind]
            refine (hrr c).bind ?_
            rintro ⟨path, _⟩ _ - (rfl : path = _)
            rfl

theorem suffixes_refine : ∀ (es : List Expr), resolvesInsideSuffixes es = true ->
    ∀ {ss ss' : List State}, MemoConsistentSuffixes T es ss -> widthPassSuffixes T es ss = .ok ss' ->
      MemoConsistentSuffixes T es ss' ∧
        ExceptRel (fun p v => p.1 = v) (getValueSuffixes T es ss') (tableSuffixes T es)
  | [], _, _, _, _, h => by
      obtain rfl := Except.ok.inj h
      exact ⟨trivial, rfl⟩
  | e :: es, he, _, _, hs, h => by
      obtain ⟨he₁, hes⟩ := Bool.and_eq_true_iff.mp he
      obtain ⟨heo, hei⟩ := Bool.and_eq_true_iff.mp he₁
      obtain ⟨s, hse, h⟩ := bind_eq_ok.mp h
      obtain ⟨ss, hss, h⟩ := bind_eq_ok.mp h
      obtain rfl := Except.ok.inj h
      obtain ⟨hs₁, m, hm, hr₁⟩ := (refines_of_resolvesInside e hei).resolve heo hs.1 hse
      obtain ⟨hs₂, hr₂⟩ := suffixes_refine es hes hs.2 hss
      refine ⟨⟨hs₁, hs₂⟩, .bind_right hm (hr₁.bind ?_)⟩
      rintro ⟨v, _⟩ _ - (rfl : v = _)
      refine hr₂.bind ?_
      rintro ⟨vs, _⟩ _ - (rfl : vs = _)
      rfl

end

mutual

theorem memoConsistent_fresh : ∀ e : Expr, MemoConsistent T e .fresh
  | .binaryInt _ _ l r | .relational _ _ l r | .boolExpr _ _ l r | .expShift _ _ l r
  | .widthCastExpr _ l r => ⟨memoConsistent_fresh l, memoConsistent_fresh r⟩
  | .unaryInt _ _ n | .reduction _ _ n | .widthCast _ n _ | .boolCast _ n
  | .parameterRef _ _ _ (some n) | .assignmentCast _ n _ => memoConsistent_fresh n
  | .ternary _ i j k => ⟨memoConsistent_fresh i, memoConsistent_fresh j, memoConsistent_fresh k⟩
  | .instRef _ _ els => memoConsistentRefElements_nil els
  | .intLiteral .. | .builtinEnumLiteral .. | .stringLiteral .. | .parameterRef _ _ _ none => trivial

theorem memoConsistentRefElements_nil :
    ∀ els : List (Token × List Expr), MemoConsistentRefElements T els []
  | [] => trivial
  | (_, sufs) :: rest => ⟨memoConsistentSuffixes_nil sufs, memoConsistentRefElements_nil rest⟩

theorem memoConsistentSuffixes_nil : ∀ es : List Expr, MemoConsistentSuffixes T es []
  | [] => trivial
  | e :: es => ⟨memoConsistent_fresh e, memoConsistentSuffixes_nil es⟩

end

/-- The code computes the table's values: whenever `resolve_expr_width()` returns, `get_value()`
equals the table's evaluation of the root, failures included. -/
theorem getValue_resolveExprWidth_eq_tableResolved {e : Expr}
    (he : (resolvesOperands e && resolvesInside e) = true) {s s' : State}
    (hs : MemoConsistent T e s) (hr : resolveExprWidth T e s = .ok s') :
    (getValue T e s').map Prod.fst = tableResolved T e := by
  obtain ⟨heo, hei⟩ := Bool.and_eq_true_iff.mp he
  obtain ⟨-, w, hw, hrel⟩ := (refines_of_resolvesInside T e hei).resolve heo hs hr
  rw [exceptRel_fst_iff.mp hrel]
  exact (bind_eq_of_ok hw rfl : tableResolved T e = _).symm

end

/-- `4'd15 + 4'd3 < 8'd17`: both operands of `<` share a context of width 8, where the sum is 18,
so the comparison is false; at the sum's own width 4 it would be `2 < 17`. -/
theorem getValue_resolveExprWidth_eq_tableResolved_lt :
    ∃ s', resolveExprWidth .leaf (.relational .lt 0
        (.binaryInt .add 0 (.intLiteral 0 15 4) (.intLiteral 0 3 4)) (.intLiteral 0 17 8)) .fresh =
        .ok s' ∧
      (getValue .leaf (.relational .lt 0
        (.binaryInt .add 0 (.intLiteral 0 15 4) (.intLiteral 0 3 4)) (.intLiteral 0 17 8)) s').map
        Prod.fst = tableResolved .leaf (.relational .lt 0
          (.binaryInt .add 0 (.intLiteral 0 15 4) (.intLiteral 0 3 4)) (.intLiteral 0 17 8)) ∧
      tableResolved .leaf (.relational .lt 0
        (.binaryInt .add 0 (.intLiteral 0 15 4) (.intLiteral 0 3 4)) (.intLiteral 0 17 8)) =
        .ok (.bool false) :=
  ⟨_, rfl, getValue_resolveExprWidth_eq_tableResolved .leaf (by rfl) (memoConsistent_fresh .leaf _)
    (by rfl), rfl⟩

end RdlExpressions
