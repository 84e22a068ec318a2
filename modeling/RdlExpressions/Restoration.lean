import RdlExpressions.Session

/-!
# A second resolution restores the attributes

`get_value()` writes one attribute: a width cast sets its `expr_eval_width` to the cast width,
over the `max(cast width, operand width)` that `resolve_expr_width()` stored. On the trees of the
operator-category table (`resolvesInside`) a second `resolve_expr_width()` after any number of
`get_value()` calls writes every node's attributes back as the first run left them.

The argument compares two states by the attributes of the tree's nodes (`nodeAttrs`), with or
without the widths of the width casts. `get_value()` keeps the attributes but those widths
(`nodeAttrs_getValue`), and the width methods read nothing else (`PassCongr`): from states that
agree up to those widths they compute the same widths and leave states that agree on every node.
-/

namespace RdlExpressions

def castSlot : Bool -> Slot -> Slot
  | true, slot => { slot with exprEvalWidth := none }
  | false, slot => slot

theorem castSlot_true_with {a b : Slot} (h : castSlot true a = castSlot true b) (w : Option Int) :
    { a with exprEvalWidth := w } = { b with exprEvalWidth := w } := by
  obtain ⟨_, _⟩ := a
  obtain ⟨_, _⟩ := b
  cases h
  rfl

theorem Slot.with_eq {a b : Slot} (h : a = b) (w : Option Int) :
    { a with exprEvalWidth := w } = { b with exprEvalWidth := w } := by
  rw [h]

theorem State.mk_one_eq {a b : Slot} {x y : State} :
    State.mk a [x] = .mk b [y] ↔ a = b ∧ x = y := by
  simp

theorem State.mk_two_eq {a b : Slot} {x y x' y' : State} :
    State.mk a [x, y] = .mk b [x', y'] ↔ a = b ∧ x = x' ∧ y = y' := by
  simp

theorem State.mk_three_eq {a b : Slot} {x y z x' y' z' : State} :
    State.mk a [x, y, z] = .mk b [x', y', z'] ↔ a = b ∧ x = x' ∧ y = y' ∧ z = z' := by
  simp

theorem State.op_one_cons_drop (s : State) (slot : Slot) (x : State) :
    (State.mk slot (x :: s.ops.drop 1)).op 1 = s.op 1 := by
  rcases s with ⟨_, _ | ⟨_, _⟩⟩ <;> rfl

mutual

/-- The attributes of the nodes of `e` in `s`, with each width cast's `expr_eval_width` forgotten
when `erase` is set. -/
def nodeAttrs (erase : Bool) : Expr -> State -> State
  | .binaryInt _ _ l r, s | .relational _ _ l r, s | .boolExpr _ _ l r, s | .expShift _ _ l r, s =>
      .mk s.slot [nodeAttrs erase l (s.op 0), nodeAttrs erase r (s.op 1)]
  | .unaryInt _ _ n, s | .reduction _ _ n, s | .boolCast _ n, s | .parameterRef _ _ _ (some n), s
  | .assignmentCast _ n _, s => .mk s.slot [nodeAttrs erase n (s.op 0)]
  | .ternary _ i j k, s =>
      .mk s.slot
        [nodeAttrs erase i (s.op 0), nodeAttrs erase j (s.op 1), nodeAttrs erase k (s.op 2)]
  | .widthCast _ v _, s => .mk (castSlot erase s.slot) [nodeAttrs erase v (s.op 0)]
  | .widthCastExpr _ v wExpr, s =>
      .mk (castSlot erase s.slot) [nodeAttrs erase v (s.op 0), nodeAttrs false wExpr (s.op 1)]
  | .instRef _ _ refElements, s => .mk s.slot (nodeAttrsRefElements erase refElements s.ops)
  | .intLiteral .., s | .builtinEnumLiteral .., s | .stringLiteral .., s
  | .parameterRef _ _ _ none, s => .mk s.slot []

def nodeAttrsRefElements (erase : Bool) : List (Token × List Expr) -> List State -> List State
  | [], _ => []
  | (_, arraySuffixes) :: rest, ss =>
      .mk (ss.headD State.fresh).slot
          (nodeAttrsSuffixes erase arraySuffixes (ss.headD State.fresh).ops) ::
        nodeAttrsRefElements erase rest ss.tail

def nodeAttrsSuffixes (erase : Bool) : List Expr -> List State -> List State
  | [], _ => []
  | e :: es, ss => nodeAttrs erase e (ss.headD State.fresh) :: nodeAttrsSuffixes erase es ss.tail

end

mutual

theorem nodeAttrs_erase_of_eq : ∀ (e : Expr) {a b : State},
    nodeAttrs false e a = nodeAttrs false e b -> nodeAttrs true e a = nodeAttrs true e b
  | .intLiteral .., _, _, h | .builtinEnumLiteral .., _, _, h | .stringLiteral .., _, _, h
  | .parameterRef _ _ _ none, _, _, h => h
  | .binaryInt _ _ l r, _, _, h | .relational _ _ l r, _, _, h | .boolExpr _ _ l r, _, _, h
  | .expShift _ _ l r, _, _, h => by
      obtain ⟨hs, hl, hr⟩ := State.mk_two_eq.mp h
      exact State.mk_two_eq.mpr ⟨hs, nodeAttrs_erase_of_eq l hl, nodeAttrs_erase_of_eq r hr⟩
  | .unaryInt _ _ n, _, _, h | .reduction _ _ n, _, _, h | .boolCast _ n, _, _, h
  | .parameterRef _ _ _ (some n), _, _, h | .assignmentCast _ n _, _, _, h => by
      obtain ⟨hs, hn⟩ := State.mk_one_eq.mp h
      exact State.mk_one_eq.mpr ⟨hs, nodeAttrs_erase_of_eq n hn⟩
  | .ternary _ i j k, _, _, h => by
      obtain ⟨hs, hi, hj, hk⟩ := State.mk_three_eq.mp h
      exact State.mk_three_eq.mpr ⟨hs, nodeAttrs_erase_of_eq i hi, nodeAttrs_erase_of_eq j hj,
        nodeAttrs_erase_of_eq k hk⟩
  | .widthCast _ v _, _, _, h => by
      obtain ⟨hs, hv⟩ := State.mk_one_eq.mp h
      exact State.mk_one_eq.mpr ⟨congrArg (castSlot true) hs, nodeAttrs_erase_of_eq v hv⟩
  | .widthCastExpr _ v _, _, _, h => by
      obtain ⟨hs, hv, hw⟩ := State.mk_two_eq.mp h
      exact State.mk_two_eq.mpr ⟨congrArg (castSlot true) hs, nodeAttrs_erase_of_eq v hv, hw⟩
  | .instRef _ _ els, _, _, h => by
      obtain ⟨hs, hels⟩ := State.mk.inj h
      exact congrArg₂ State.mk hs (nodeAttrsRefElements_erase_of_eq els hels)

theorem nodeAttrsRefElements_erase_of_eq : ∀ (els : List (Token × List Expr)) {ss ss' : List State},
    nodeAttrsRefElements false els ss = nodeAttrsRefElements false els ss' ->
      nodeAttrsRefElements true els ss = nodeAttrsRefElements true els ss'
  | [], _, _, _ => rfl
  | (_, sufs) :: rest, _, _, h => by
      obtain ⟨hseg, hr⟩ := List.cons.inj h
      obtain ⟨hs, hsu⟩ := State.mk.inj hseg
      exact congrArg₂ List.cons (congrArg₂ State.mk hs (nodeAttrsSuffixes_erase_of_eq sufs hsu))
        (nodeAttrsRefElements_erase_of_eq rest hr)

theorem nodeAttrsSuffixes_erase_of_eq : ∀ (es : List Expr) {ss ss' : List State},
    nodeAttrsSuffixes false es ss = nodeAttrsSuffixes false es ss' ->
      nodeAttrsSuffixes true es ss = nodeAttrsSuffixes true es ss'
  | [], _, _, _ => rfl
  | e :: es, _, _, h => by
      obtain ⟨he, hes⟩ := List.cons.inj h
      exact congrArg₂ List.cons (nodeAttrs_erase_of_eq e he) (nodeAttrsSuffixes_erase_of_eq es hes)

end

section

variable (T : ComponentTree)

/-!
# What `get_value()` writes and reads
-/

mutual

theorem nodeAttrs_getValue : ∀ (e : Expr) {s s' : State} {v : Value},
    getValue T e s = .ok (v, s') -> nodeAttrs true e s' = nodeAttrs true e s
  | .intLiteral .., _, _, _, h
  | .builtinEnumLiteral .., _, _, _, h
  | .stringLiteral .., _, _, _, h
  | .reduction .boolNot .., _, _, _, h => by
      obtain ⟨rfl, rfl⟩ := Prod.mk.inj (Except.ok.inj h)
      rfl
  | .binaryInt _ _ l r, _, _, _, h
  | .expShift _ _ l r, _, _, _, h => by
      obtain ⟨⟨lv, sl⟩, hl, h⟩ := bind_eq_ok.mp h
      obtain ⟨a, -, h⟩ := bind_eq_ok.mp h
      obtain ⟨⟨rv, sr⟩, hr, h⟩ := bind_eq_ok.mp h
      obtain ⟨b, -, h⟩ := bind_eq_ok.mp h
      obtain ⟨x, -, h⟩ := bind_eq_ok.mp h
      obtain ⟨y, -, h⟩ := bind_eq_ok.mp h
      obtain ⟨rfl, rfl⟩ := Prod.mk.inj (Except.ok.inj h)
      exact State.mk_two_eq.mpr ⟨rfl, nodeAttrs_getValue l hl, nodeAttrs_getValue r hr⟩
  | .relational _ _ l r, _, _, _, h => by
      obtain ⟨⟨lv, sl⟩, hl, h⟩ := bind_eq_ok.mp h
      obtain ⟨a, -, h⟩ := bind_eq_ok.mp h
      obtain ⟨⟨rv, sr⟩, hr, h⟩ := bind_eq_ok.mp h
      obtain ⟨b, -, h⟩ := bind_eq_ok.mp h
      obtain ⟨rfl, rfl⟩ := Prod.mk.inj (Except.ok.inj h)
      exact State.mk_two_eq.mpr ⟨rfl, nodeAttrs_getValue l hl, nodeAttrs_getValue r hr⟩
  | .unaryInt _ _ n, _, _, _, h
  | .reduction .andReduce _ n, _, _, _, h
  | .reduction .nandReduce _ n, _, _, _, h
  | .reduction .orReduce _ n, _, _, _, h
  | .reduction .norReduce _ n, _, _, _, h
  | .reduction .xorReduce _ n, _, _, _, h
  | .reduction .xnorReduce _ n, _, _, _, h
  | .widthCast _ n _, _, _, _, h => by
      obtain ⟨⟨nv, sn⟩, hn, h⟩ := bind_eq_ok.mp h
      obtain ⟨a, -, h⟩ := bind_eq_ok.mp h
      obtain ⟨x, -, h⟩ := bind_eq_ok.mp h
      obtain ⟨rfl, rfl⟩ := Prod.mk.inj (Except.ok.inj h)
      exact State.mk_one_eq.mpr ⟨rfl, nodeAttrs_getValue n hn⟩
  | .widthCastExpr _ v _, _, _, _, h => by
      obtain ⟨⟨vv, sv⟩, hv, h⟩ := bind_eq_ok.mp h
      obtain ⟨a, -, h⟩ := bind_eq_ok.mp h
      obtain ⟨x, -, h⟩ := bind_eq_ok.mp h
      obtain ⟨rfl, rfl⟩ := Prod.mk.inj (Except.ok.inj h)
      exact State.mk_two_eq.mpr ⟨rfl, nodeAttrs_getValue v hv, rfl⟩
  | .boolExpr _ _ l r, _, _, _, h => by
      obtain ⟨⟨lv, sl⟩, hl, h⟩ := bind_eq_ok.mp h
      obtain ⟨⟨rv, sr⟩, hr, h⟩ := bind_eq_ok.mp h
      obtain ⟨rfl, rfl⟩ := Prod.mk.inj (Except.ok.inj h)
      exact State.mk_two_eq.mpr ⟨rfl, nodeAttrs_getValue l hl, nodeAttrs_getValue r hr⟩
  | .ternary _ i j k, _, _, _, h => by
      obtain ⟨⟨iv, si⟩, hi, h⟩ := bind_eq_ok.mp h
      obtain ⟨⟨jv, sj⟩, hj, h⟩ := bind_eq_ok.mp h
      obtain ⟨⟨kv, sk⟩, hk, h⟩ := bind_eq_ok.mp h
      obtain ⟨rfl, rfl⟩ := Prod.mk.inj (Except.ok.inj h)
      exact State.mk_three_eq.mpr
        ⟨rfl, nodeAttrs_getValue i hi, nodeAttrs_getValue j hj, nodeAttrs_getValue k hk⟩
  | .boolCast _ n, _, _, _, h => by
      obtain ⟨⟨nv, sn⟩, hn, h⟩ := bind_eq_ok.mp h
      obtain ⟨a, -, h⟩ := bind_eq_ok.mp h
      obtain ⟨rfl, rfl⟩ := Prod.mk.inj (Except.ok.inj h)
      exact State.mk_one_eq.mpr ⟨rfl, nodeAttrs_getValue n hn⟩
  | .parameterRef _ _ _ none, _, _, _, h => nomatch h
  | .parameterRef _ _ _ (some n), _, _, _, h
  | .assignmentCast _ n _, _, _, _, h => by
      obtain ⟨⟨nv, sn⟩, hn, h⟩ := bind_eq_ok.mp h
      obtain ⟨rfl, rfl⟩ := Prod.mk.inj (Except.ok.inj h)
      exact State.mk_one_eq.mpr ⟨rfl, nodeAttrs_getValue n hn⟩
  | .instRef refInst _ els, _, _, _, h => by
      obtain ⟨⟨path, segs⟩, hp, h⟩ := bind_eq_ok.mp h
      obtain ⟨rfl, rfl⟩ := Prod.mk.inj (Except.ok.inj h)
      exact congrArg (State.mk _) (nodeAttrsRefElements_getValue refInst els hp)

theorem nodeAttrsRefElements_getValue : ∀ (cur : Nat) (els : List (Token × List Expr))
    {ss ss' : List State} {path : List (String × Option (List Value))},
    getValueRefElements T cur els ss = .ok (path, ss') ->
      nodeAttrsRefElements true els ss' = nodeAttrsRefElements true els ss
  | _, [], _, _, _, h => by
      obtain ⟨rfl, rfl⟩ := Prod.mk.inj (Except.ok.inj h)
      rfl
  | cur, (tok, sufs) :: rest, _, _, _, h => by
      simp only [getValueRefElements] at h
      cases hc : T.getChildByName cur tok.text with
      | none => simp [hc] at h
      | some c =>
          simp only [hc] at h
          split at h
          · simp only [bind_assoc, pure_bind, bind_eq_ok, pure_eq_ok, Prod.mk.injEq] at h
            obtain ⟨⟨idx, sufStates⟩, hsufs, -, -, ⟨path, restStates⟩, hrest, rfl, rfl⟩ := h
            exact congrArg₂ List.cons
              (congrArg (State.mk _) (nodeAttrsSuffixes_getValue sufs hsufs))
              (nodeAttrsRefElements_getValue c rest hrest)
          · simp only [pure_bind, bind_eq_ok, pure_eq_ok, Prod.mk.injEq] at h
            obtain ⟨⟨path, restStates⟩, hrest, rfl, rfl⟩ := h
            exact congrArg (List.cons _) (nodeAttrsRefElements_getValue c rest hrest)

theorem nodeAttrsSuffixes_getValue : ∀ (es : List Expr) {ss ss' : List State} {vs : List Value},
    getValueSuffixes T es ss = .ok (vs, ss') ->
      nodeAttrsSuffixes true es ss' = nodeAttrsSuffixes true es ss
  | [], _, _, _, h => by
      obtain ⟨rfl, rfl⟩ := Prod.mk.inj (Except.ok.inj h)
      rfl
  | e :: es, _, _, _, h => by
      obtain ⟨⟨v, s⟩, he, h⟩ := bind_eq_ok.mp h
      obtain ⟨⟨vs, ss⟩, hes, h⟩ := bind_eq_ok.mp h
      obtain ⟨rfl, rfl⟩ := Prod.mk.inj (Except.ok.inj h)
      exact congrArg₂ List.cons (nodeAttrs_getValue e he) (nodeAttrsSuffixes_getValue es hes)

end

mutual

theorem getValue_congr : ∀ (e : Expr) {a b : State}, nodeAttrs false e a = nodeAttrs false e b ->
    ExceptRel (fun p q => p.1 = q.1 ∧ nodeAttrs false e p.2 = nodeAttrs false e q.2)
      (getValue T e a) (getValue T e b)
  | .intLiteral .., _, _, h | .builtinEnumLiteral .., _, _, h | .stringLiteral .., _, _, h
  | .reduction .boolNot .., _, _, h => ⟨rfl, h⟩
  | .binaryInt _ _ l r, .mk sa _, .mk sb _, h | .expShift _ _ l r, .mk sa _, .mk sb _, h => by
      obtain ⟨hs, hl, hr⟩ := State.mk_two_eq.mp h
      obtain rfl : sa = sb := hs
      refine (getValue_congr l hl).bind ?_
      rintro ⟨lv, sl⟩ ⟨_, sl'⟩ - ⟨rfl, hsl⟩
      refine .bind_same fun _ _ => (getValue_congr r hr).bind ?_
      rintro ⟨rv, sr⟩ ⟨_, sr'⟩ - ⟨rfl, hsr⟩
      exact .bind_same fun _ _ => .bind_same fun _ _ => .bind_same fun _ _ =>
        ⟨rfl, State.mk_two_eq.mpr ⟨rfl, hsl, hsr⟩⟩
  | .relational _ _ l r, .mk sa _, .mk sb _, h => by
      obtain ⟨hs, hl, hr⟩ := State.mk_two_eq.mp h
      obtain rfl : sa = sb := hs
      refine (getValue_congr l hl).bind ?_
      rintro ⟨lv, sl⟩ ⟨_, sl'⟩ - ⟨rfl, hsl⟩
      refine .bind_same fun _ _ => (getValue_congr r hr).bind ?_
      rintro ⟨rv, sr⟩ ⟨_, sr'⟩ - ⟨rfl, hsr⟩
      exact .bind_same fun _ _ => ⟨rfl, State.mk_two_eq.mpr ⟨rfl, hsl, hsr⟩⟩
  | .unaryInt _ _ n, .mk sa _, .mk sb _, h
  | .reduction .andReduce _ n, .mk sa _, .mk sb _, h
  | .reduction .nandReduce _ n, .mk sa _, .mk sb _, h
  | .reduction .orReduce _ n, .mk sa _, .mk sb _, h
  | .reduction .norReduce _ n, .mk sa _, .mk sb _, h
  | .reduction .xorReduce _ n, .mk sa _, .mk sb _, h
  | .reduction .xnorReduce _ n, .mk sa _, .mk sb _, h
  | .widthCast _ n _, .mk sa _, .mk sb _, h => by
      obtain ⟨hs, hn⟩ := State.mk_one_eq.mp h
      obtain rfl : sa = sb := hs
      refine (getValue_congr n hn).bind ?_
      rintro ⟨nv, sn⟩ ⟨_, sn'⟩ - ⟨rfl, hsn⟩
      exact .bind_same fun _ _ => .bind_same fun _ _ => ⟨rfl, State.mk_one_eq.mpr ⟨rfl, hsn⟩⟩
  | .widthCastExpr _ v _, .mk sa _, .mk sb _, h => by
      obtain ⟨hs, hv, hw⟩ := State.mk_two_eq.mp h
      obtain rfl : sa = sb := hs
      refine (getValue_congr v hv).bind ?_
      rintro ⟨vv, sv⟩ ⟨_, sv'⟩ - ⟨rfl, hsv⟩
      exact .bind_same fun _ _ => .bind_same fun _ _ => ⟨rfl, State.mk_two_eq.mpr ⟨rfl, hsv, hw⟩⟩
  | .boolExpr _ _ l r, .mk sa _, .mk sb _, h => by
      obtain ⟨hs, hl, hr⟩ := State.mk_two_eq.mp h
      obtain rfl : sa = sb := hs
      refine (getValue_congr l hl).bind ?_
      rintro ⟨lv, sl⟩ ⟨_, sl'⟩ - ⟨rfl, hsl⟩
      refine (getValue_congr r hr).bind ?_
      rintro ⟨rv, sr⟩ ⟨_, sr'⟩ - ⟨rfl, hsr⟩
      exact ⟨rfl, State.mk_two_eq.mpr ⟨rfl, hsl, hsr⟩⟩
  | .ternary _ i j k, .mk sa _, .mk sb _, h => by
      obtain ⟨hs, hi, hj, hk⟩ := State.mk_three_eq.mp h
      obtain rfl : sa = sb := hs
      refine (getValue_congr i hi).bind ?_
      rintro ⟨iv, si⟩ ⟨_, si'⟩ - ⟨rfl, hsi⟩
      refine (getValue_congr j hj).bind ?_
      rintro ⟨jv, sj⟩ ⟨_, sj'⟩ - ⟨rfl, hsj⟩
      refine (getValue_congr k hk).bind ?_
      rintro ⟨kv, sk⟩ ⟨_, sk'⟩ - ⟨rfl, hsk⟩
      exact ⟨rfl, State.mk_three_eq.mpr ⟨rfl, hsi, hsj, hsk⟩⟩
  | .boolCast _ n, .mk sa _, .mk sb _, h => by
      obtain ⟨hs, hn⟩ := State.mk_one_eq.mp h
      obtain rfl : sa = sb := hs
      refine (getValue_congr n hn).bind ?_
      rintro ⟨nv, sn⟩ ⟨_, sn'⟩ - ⟨rfl, hsn⟩
      exact .bind_same fun _ _ => ⟨rfl, State.mk_one_eq.mpr ⟨rfl, hsn⟩⟩
  | .parameterRef _ _ _ none, _, _, _ => rfl
  | .parameterRef _ _ _ (some n), .mk sa _, .mk sb _, h
  | .assignmentCast _ n _, .mk sa _, .mk sb _, h => by
      obtain ⟨hs, hn⟩ := State.mk_one_eq.mp h
      obtain rfl : sa = sb := hs
      refine (getValue_congr n hn).bind ?_
      rintro ⟨nv, sn⟩ ⟨_, sn'⟩ - ⟨rfl, hsn⟩
      exact ⟨rfl, State.mk_one_eq.mpr ⟨rfl, hsn⟩⟩
  | .instRef refInst _ els, .mk sa _, .mk sb _, h => by
      obtain ⟨hs, hels⟩ := State.mk.inj h
      obtain rfl : sa = sb := hs
      refine (getValueRefElements_congr refInst els hels).bind ?_
      rintro ⟨path, segs⟩ ⟨_, segs'⟩ - ⟨rfl, hsegs⟩
      exact ⟨rfl, congrArg (State.mk _) hsegs⟩

theorem getValueRefElements_congr : ∀ (cur : Nat) (els : List (Token × List Expr))
    {ss ss' : List State}, nodeAttrsRefElements false els ss = nodeAttrsRefElements false els ss' ->
      ExceptRel (fun p q => p.1 = q.1 ∧
          nodeAttrsRefElements false els p.2 = nodeAttrsRefElements false els q.2)
        (getValueRefElements T cur els ss) (getValueRefElements T cur els ss')
  | _, [], _, _, _ => ⟨rfl, rfl⟩
  | cur, (tok, sufs) :: rest, _, _, h => by
      obtain ⟨hseg, hr⟩ := List.cons.inj h
      obtain ⟨hs, hsu⟩ := State.mk.inj hseg
      simp only [getValueRefElements]
      cases T.getChildByName cur tok.text with
      | none => rfl
      | some c =>
          by_cases harr : T.isAddressableArray c = true
          · simp only [harr, if_true, bind_assoc, pure_bind]
            refine (getValueSuffixes_congr sufs hsu).bind ?_
            rintro ⟨idx, st⟩ ⟨_, st'⟩ - ⟨rfl, hst⟩
            refine .bind_same fun _ _ => (getValueRefElements_congr c rest hr).bind ?_
            rintro ⟨path, rs⟩ ⟨_, rs'⟩ - ⟨rfl, hrs⟩
            exact ⟨rfl, congrArg₂ List.cons (congrArg₂ State.mk hs hst) hrs⟩
          · simp only [harr, if_false, Bool.false_eq_true, pure_bind]
            refine (getValueRefElements_congr c rest hr).bind ?_
            rintro ⟨path, rs⟩ ⟨_, rs'⟩ - ⟨rfl, hrs⟩
            exact ⟨rfl, congrArg₂ List.cons hseg hrs⟩

theorem getValueSuffixes_congr : ∀ (es : List Expr) {ss ss' : List State},
    nodeAttrsSuffixes false es ss = nodeAttrsSuffixes false es ss' ->
      ExceptRel (fun p q => p.1 = q.1 ∧
          nodeAttrsSuffixes false es p.2 = nodeAttrsSuffixes false es q.2)
        (getValueSuffixes T es ss) (getValueSuffixes T es ss')
  | [], _, _, _ => ⟨rfl, rfl⟩
  | e :: es, _, _, h => by
      obtain ⟨he, hes⟩ := List.cons.inj h
      refine (getValue_congr e he).bind ?_
      rintro ⟨v, s⟩ ⟨_, s'⟩ - ⟨rfl, hs⟩
      refine (getValueSuffixes_congr es hes).bind ?_
      rintro ⟨vs, ss⟩ ⟨_, ss'⟩ - ⟨rfl, hss⟩
      exact ⟨rfl, congrArg₂ List.cons hs hss⟩

end

/-!
# What the width methods read
-/

structure PassCongr (e : Expr) : Prop where
  minWidth : ∀ {a b : State}, nodeAttrs true e a = nodeAttrs true e b ->
    ExceptRel (fun p q => p.1 = q.1 ∧ nodeAttrs true e p.2 = nodeAttrs true e q.2)
      (getMinEvalWidth T e a) (getMinEvalWidth T e b)
  pass : ∀ {a b : State} (ctx : Option Int), (ctx = none -> resolvesOperands e = true) ->
    nodeAttrs true e a = nodeAttrs true e b ->
      ExceptRel (fun x y => nodeAttrs false e x = nodeAttrs false e y)
        (widthPass T ctx e a) (widthPass T ctx e b)

variable {T}

theorem PassCongr.defaultResolve_one {x : Expr} (hx : PassCongr T x) {a b : State}
    (hs : a.slot = b.slot) (h0 : nodeAttrs true x (a.op 0) = nodeAttrs true x (b.op 0)) :
    ExceptRel (fun s t =>
        State.mk s.slot [nodeAttrs false x (s.op 0)] = .mk t.slot [nodeAttrs false x (t.op 0)])
      (defaultResolve [⟨getMinEvalWidth T x, fun w => widthPass T (some w) x⟩] a)
      (defaultResolve [⟨getMinEvalWidth T x, fun w => widthPass T (some w) x⟩] b) := by
  rw [RdlExpressions.defaultResolve_one, RdlExpressions.defaultResolve_one]
  refine (hx.minWidth h0).bind ?_
  rintro ⟨w, sa⟩ ⟨_, sb⟩ - ⟨rfl, hab⟩
  exact (hx.pass (some (max 1 w)) nofun hab).bind fun _ _ _ h =>
    State.mk_one_eq.mpr ⟨Slot.with_eq hs _, h⟩

theorem PassCongr.defaultPropagate_one {x : Expr} (hx : PassCongr T x) (W : Int) {a b : State}
    (hs : a.slot = b.slot) (h0 : nodeAttrs true x (a.op 0) = nodeAttrs true x (b.op 0)) :
    ExceptRel (fun s t =>
        State.mk s.slot [nodeAttrs false x (s.op 0)] = .mk t.slot [nodeAttrs false x (t.op 0)])
      (defaultPropagate [⟨getMinEvalWidth T x, fun w => widthPass T (some w) x⟩] W a)
      (defaultPropagate [⟨getMinEvalWidth T x, fun w => widthPass T (some w) x⟩] W b) := by
  rw [RdlExpressions.defaultPropagate_one, RdlExpressions.defaultPropagate_one]
  exact (hx.pass (some W) nofun h0).bind fun _ _ _ h => State.mk_one_eq.mpr ⟨Slot.with_eq hs _, h⟩

theorem PassCongr.defaultResolve_two {l r : Expr} (hl : PassCongr T l) (hr : PassCongr T r)
    {a b : State} (hs : a.slot = b.slot)
    (h0 : nodeAttrs true l (a.op 0) = nodeAttrs true l (b.op 0))
    (h1 : nodeAttrs true r (a.op 1) = nodeAttrs true r (b.op 1)) :
    ExceptRel (fun s t => State.mk s.slot [nodeAttrs false l (s.op 0), nodeAttrs false r (s.op 1)] =
        .mk t.slot [nodeAttrs false l (t.op 0), nodeAttrs false r (t.op 1)])
      (defaultResolve [⟨getMinEvalWidth T l, fun w => widthPass T (some w) l⟩,
        ⟨getMinEvalWidth T r, fun w => widthPass T (some w) r⟩] a)
      (defaultResolve [⟨getMinEvalWidth T l, fun w => widthPass T (some w) l⟩,
        ⟨getMinEvalWidth T r, fun w => widthPass T (some w) r⟩] b) := by
  rw [RdlExpressions.defaultResolve_two, RdlExpressions.defaultResolve_two]
  refine (hl.minWidth h0).bind ?_
  rintro ⟨wa, sa⟩ ⟨_, sa'⟩ - ⟨rfl, ha⟩
  refine (hr.minWidth h1).bind ?_
  rintro ⟨wb, sb⟩ ⟨_, sb'⟩ - ⟨rfl, hb⟩
  exact (hl.pass (some (max (max 1 wa) wb)) nofun ha).bind fun _ _ _ hla =>
    (hr.pass (some (max (max 1 wa) wb)) nofun hb).bind
    fun _ _ _ hrb => State.mk_two_eq.mpr ⟨Slot.with_eq hs _, hla, hrb⟩

theorem PassCongr.defaultPropagate_two {l r : Expr} (hl : PassCongr T l) (hr : PassCongr T r)
    (W : Int) {a b : State} (hs : a.slot = b.slot)
    (h0 : nodeAttrs true l (a.op 0) = nodeAttrs true l (b.op 0))
    (h1 : nodeAttrs true r (a.op 1) = nodeAttrs true r (b.op 1)) :
    ExceptRel (fun s t => State.mk s.slot [nodeAttrs false l (s.op 0), nodeAttrs false r (s.op 1)] =
        .mk t.slot [nodeAttrs false l (t.op 0), nodeAttrs false r (t.op 1)])
      (defaultPropagate [⟨getMinEvalWidth T l, fun w => widthPass T (some w) l⟩,
        ⟨getMinEvalWidth T r, fun w => widthPass T (some w) r⟩] W a)
      (defaultPropagate [⟨getMinEvalWidth T l, fun w => widthPass T (some w) l⟩,
        ⟨getMinEvalWidth T r, fun w => widthPass T (some w) r⟩] W b) := by
  rw [RdlExpressions.defaultPropagate_two, RdlExpressions.defaultPropagate_two]
  exact (hl.pass (some W) nofun h0).bind fun _ _ _ hla => (hr.pass (some W) nofun h1).bind
    fun _ _ _ hrb => State.mk_two_eq.mpr ⟨Slot.with_eq hs _, hla, hrb⟩

theorem PassCongr.resolveCastValue {v : Expr} (hv : PassCongr T v) (cw : Int) {a b : State}
    (hs : castSlot true a.slot = castSlot true b.slot)
    (h0 : nodeAttrs true v (a.op 0) = nodeAttrs true v (b.op 0)) :
    ExceptRel (fun s t => s.slot = t.slot ∧
        nodeAttrs false v (s.op 0) = nodeAttrs false v (t.op 0) ∧ s.op 1 = a.op 1 ∧ t.op 1 = b.op 1)
      (resolveCastValue ⟨getMinEvalWidth T v, fun w => widthPass T (some w) v⟩ cw a)
      (resolveCastValue ⟨getMinEvalWidth T v, fun w => widthPass T (some w) v⟩ cw b) := by
  unfold RdlExpressions.resolveCastValue
  refine (hv.minWidth h0).bind ?_
  rintro ⟨w, sa⟩ ⟨_, sb⟩ - ⟨rfl, hab⟩
  exact (hv.pass (some (max cw w)) nofun hab).bind fun _ _ _ h =>
    ⟨castSlot_true_with hs _, h, State.op_one_cons_drop a _ _, State.op_one_cons_drop b _ _⟩

theorem PassCongr.resolveCastWidth {c : ErrCtx} {v wExpr : Expr} (hw : PassCongr T wExpr)
    (hwo : resolvesOperands wExpr = true) {a b : State}
    (h : nodeAttrs true (.widthCastExpr c v wExpr) a =
      nodeAttrs true (.widthCastExpr c v wExpr) b) :
    ExceptRel (fun p q => p.1 = q.1 ∧ nodeAttrs true (.widthCastExpr c v wExpr) p.2 =
        nodeAttrs true (.widthCastExpr c v wExpr) q.2)
      (resolveCastWidth (fun se => do getValue T wExpr (← widthPass T none wExpr se)) a)
      (resolveCastWidth (fun se => do getValue T wExpr (← widthPass T none wExpr se)) b) := by
  obtain ⟨hs, h0, h1⟩ := State.mk_two_eq.mp h
  have hc : a.slot.castWidth = b.slot.castWidth := (congrArg Slot.castWidth hs :)
  cases hcb : b.slot.castWidth with
  | some cw =>
      rw [resolveCastWidth_of_castWidth (hc.trans hcb), resolveCastWidth_of_castWidth hcb]
      exact ⟨rfl, h⟩
  | none =>
      rw [resolveCastWidth_of_none (hc.trans hcb), resolveCastWidth_of_none hcb]
      refine ((hw.pass none (fun _ => hwo) (nodeAttrs_erase_of_eq wExpr h1)).bind
        fun _ _ _ he => getValue_congr T wExpr he).bind ?_
      rintro ⟨cv, se⟩ ⟨_, se'⟩ - ⟨rfl, hse⟩
      exact .bind_same fun _ _ => ⟨rfl, State.mk_two_eq.mpr ⟨rfl, h0, hse⟩⟩

mutual

theorem passCongr_of_resolvesInside : ∀ (e : Expr), resolvesInside e = true -> PassCongr T e
  | .intLiteral .., _ | .builtinEnumLiteral .., _ | .stringLiteral .., _ =>
      ⟨fun h => ⟨rfl, h⟩, fun {a b} ctx _ h => by
        obtain ⟨sa, _⟩ := a
        obtain ⟨sb, _⟩ := b
        obtain rfl : sa = sb := (State.mk.inj h).1
        cases ctx <;> exact rfl⟩
  | .binaryInt _ _ l r, he => by
      obtain ⟨hl, hr⟩ := Bool.and_eq_true_iff.mp he
      have ihl := passCongr_of_resolvesInside l hl
      have ihr := passCongr_of_resolvesInside r hr
      refine ⟨fun h => ?_, fun ctx _ h => ?_⟩
      · obtain ⟨hs, h0, h1⟩ := State.mk_two_eq.mp h
        refine (ihl.minWidth h0).bind ?_
        rintro ⟨_, sl⟩ ⟨_, sl'⟩ - ⟨rfl, hsl⟩
        refine (ihr.minWidth h1).bind ?_
        rintro ⟨_, sr⟩ ⟨_, sr'⟩ - ⟨rfl, hsr⟩
        exact ⟨rfl, State.mk_two_eq.mpr ⟨hs, hsl, hsr⟩⟩
      · obtain ⟨hs, h0, h1⟩ := State.mk_two_eq.mp h
        cases ctx
        · exact ihl.defaultResolve_two ihr hs h0 h1
        · exact ihl.defaultPropagate_two ihr _ hs h0 h1
  | .unaryInt _ _ n, he => by
      have ih := passCongr_of_resolvesInside n he
      refine ⟨fun h => ?_, fun ctx _ h => ?_⟩
      · obtain ⟨hs, h0⟩ := State.mk_one_eq.mp h
        refine (ih.minWidth h0).bind ?_
        rintro ⟨_, sn⟩ ⟨_, sn'⟩ - ⟨rfl, hsn⟩
        exact ⟨rfl, State.mk_one_eq.mpr ⟨hs, hsn⟩⟩
      · obtain ⟨hs, h0⟩ := State.mk_one_eq.mp h
        cases ctx
        · exact ih.defaultResolve_one hs h0
        · exact ih.defaultPropagate_one _ hs h0
  | .relational _ _ l r, he => by
      obtain ⟨hl, hr⟩ := Bool.and_eq_true_iff.mp he
      have ihl := passCongr_of_resolvesInside l hl
      have ihr := passCongr_of_resolvesInside r hr
      refine ⟨fun h => ⟨rfl, h⟩, fun ctx _ h => ?_⟩
      obtain ⟨hs, h0, h1⟩ := State.mk_two_eq.mp h
      cases ctx <;> exact ihl.defaultResolve_two ihr hs h0 h1
  | .reduction _ _ n, he | .boolCast _ n, he => by
      have ih := passCongr_of_resolvesInside n he
      refine ⟨fun h => ⟨rfl, h⟩, fun ctx _ h => ?_⟩
      obtain ⟨hs, h0⟩ := State.mk_one_eq.mp h
      cases ctx <;> exact ih.defaultResolve_one hs h0
  | .parameterRef _ _ _ (some n), he | .assignmentCast _ n _, he => by
      have ih := passCongr_of_resolvesInside n he
      refine ⟨fun h => ?_, fun ctx _ h => ?_⟩
      · obtain ⟨hs, h0⟩ := State.mk_one_eq.mp h
        refine (ih.minWidth h0).bind ?_
        rintro ⟨_, sn⟩ ⟨_, sn'⟩ - ⟨rfl, hsn⟩
        exact ⟨rfl, State.mk_one_eq.mpr ⟨hs, hsn⟩⟩
      · obtain ⟨hs, h0⟩ := State.mk_one_eq.mp h
        cases ctx <;> exact ih.defaultResolve_one hs h0
  | .boolExpr _ _ l r, he => by
      obtain ⟨hl, hr⟩ := Bool.and_eq_true_iff.mp he
      obtain ⟨hlo, hli⟩ := Bool.and_eq_true_iff.mp hl
      obtain ⟨hro, hri⟩ := Bool.and_eq_true_iff.mp hr
      have ihl := passCongr_of_resolvesInside l hli
      have ihr := passCongr_of_resolvesInside r hri
      refine ⟨fun h => ⟨rfl, h⟩, fun ctx hctx h => ?_⟩
      cases ctx
      · exact (Bool.false_ne_true (hctx rfl)).elim
      · obtain ⟨hs, h0, h1⟩ := State.mk_two_eq.mp h
        exact (ihl.pass none (fun _ => hlo) h0).bind fun _ _ _ hsl =>
          (ihr.pass none (fun _ => hro) h1).bind fun _ _ _ hsr => State.mk_two_eq.mpr ⟨hs, hsl, hsr⟩
  | .expShift _ _ l r, he => by
      obtain ⟨hl, hr⟩ := Bool.and_eq_true_iff.mp he
      obtain ⟨hro, hri⟩ := Bool.and_eq_true_iff.mp hr
      have ihl := passCongr_of_resolvesInside l hl
      have ihr := passCongr_of_resolvesInside r hri
      refine ⟨fun h => ?_, fun ctx hctx h => ?_⟩
      · obtain ⟨hs, h0, h1⟩ := State.mk_two_eq.mp h
        refine (ihl.minWidth h0).bind ?_
        rintro ⟨_, sl⟩ ⟨_, sl'⟩ - ⟨rfl, hsl⟩
        exact ⟨rfl, State.mk_two_eq.mpr ⟨hs, hsl, h1⟩⟩
      · cases ctx with
        | none => exact (Bool.false_ne_true (hctx rfl)).elim
        | some W =>
          obtain ⟨hs, h0, h1⟩ := State.mk_two_eq.mp h
          exact (ihl.pass (some W) nofun h0).bind fun _ _ _ hsl =>
            (ihr.pass none (fun _ => hro) h1).bind fun _ _ _ hsr =>
              State.mk_two_eq.mpr ⟨Slot.with_eq hs _, hsl, hsr⟩
  | .ternary _ i j k, he => by
      obtain ⟨hi, hjk⟩ := Bool.and_eq_true_iff.mp he
      obtain ⟨hio, hii⟩ := Bool.and_eq_true_iff.mp hi
      obtain ⟨hj, hk⟩ := Bool.and_eq_true_iff.mp hjk
      have ihi := passCongr_of_resolvesInside i hii
      have ihj := passCongr_of_resolvesInside j hj
      have ihk := passCongr_of_resolvesInside k hk
      refine ⟨fun h => ?_, fun ctx hctx h => ?_⟩
      · obtain ⟨hs, h0, h1, h2⟩ := State.mk_three_eq.mp h
        refine (ihj.minWidth h1).bind ?_
        rintro ⟨_, sj⟩ ⟨_, sj'⟩ - ⟨rfl, hsj⟩
        refine (ihk.minWidth h2).bind ?_
        rintro ⟨_, sk⟩ ⟨_, sk'⟩ - ⟨rfl, hsk⟩
        exact ⟨rfl, State.mk_three_eq.mpr ⟨hs, h0, hsj, hsk⟩⟩
      · cases ctx with
        | none => exact (Bool.false_ne_true (hctx rfl)).elim
        | some W =>
          obtain ⟨hs, h0, h1, h2⟩ := State.mk_three_eq.mp h
          exact (ihj.pass (some W) nofun h1).bind fun _ _ _ hsj =>
            (ihk.pass (some W) nofun h2).bind fun _ _ _ hsk =>
              (ihi.pass none (fun _ => hio) h0).bind fun _ _ _ hsi =>
                State.mk_three_eq.mpr ⟨Slot.with_eq hs _, hsi, hsj, hsk⟩
  | .widthCast _ v _, he => by
      have ih := passCongr_of_resolvesInside v he
      refine ⟨fun h => ⟨rfl, h⟩, fun ctx _ h => ?_⟩
      obtain ⟨hs, h0⟩ := State.mk_one_eq.mp h
      cases ctx <;> exact (ih.resolveCastValue _ hs h0).imp fun _ _ ⟨hst, hv, _⟩ =>
        State.mk_one_eq.mpr ⟨hst, hv⟩
  | .widthCastExpr _ v wExpr, he => by
      obtain ⟨hv, hw⟩ := Bool.and_eq_true_iff.mp he
      obtain ⟨hwo, hwi⟩ := Bool.and_eq_true_iff.mp hw
      have ihv := passCongr_of_resolvesInside v hv
      have ihw := passCongr_of_resolvesInside wExpr hwi
      refine ⟨ihw.resolveCastWidth hwo, fun ctx _ h => ?_⟩
      cases ctx
      all_goals
        refine (ihw.resolveCastWidth hwo h).bind ?_
        rintro ⟨cw, sa⟩ ⟨_, sb⟩ - ⟨rfl, hab⟩
        obtain ⟨hs, h0, h1⟩ := State.mk_two_eq.mp hab
        refine (ihv.resolveCastValue cw hs h0).imp fun _ _ ⟨hst, hsv, hsa, hsb⟩ => ?_
        exact State.mk_two_eq.mpr ⟨hst, hsv, by rw [hsa, hsb]; exact h1⟩
  | .parameterRef _ _ _ none, _ => ⟨fun _ => rfl, fun ctx _ _ => by cases ctx <;> rfl⟩
  | .instRef _ _ els, he =>
      ⟨fun h => ⟨rfl, h⟩, fun ctx _ h => by
        obtain ⟨hs, hels⟩ := State.mk.inj h
        cases ctx <;>
          exact (refElements_passCongr els he hels).bind fun _ _ _ h' => congrArg₂ State.mk hs h'⟩

theorem refElements_passCongr : ∀ (els : List (Token × List Expr)),
    resolvesInsideRefElements els = true -> ∀ {ss ss' : List State},
      nodeAttrsRefElements true els ss = nodeAttrsRefElements true els ss' ->
        ExceptRel (fun xs ys =>
            nodeAttrsRefElements false els xs = nodeAttrsRefElements false els ys)
          (widthPassRefElements T els ss) (widthPassRefElements T els ss')
  | [], _, _, _, _ => rfl
  | (_, sufs) :: rest, he, _, _, h => by
      obtain ⟨hsufs, hrest⟩ := Bool.and_eq_true_iff.mp he
      obtain ⟨hseg, hr⟩ := List.cons.inj h
      obtain ⟨hs, hsu⟩ := State.mk.inj hseg
      exact (suffixes_passCongr sufs hsufs hsu).bind fun _ _ _ h₁ =>
        (refElements_passCongr rest hrest hr).bind fun _ _ _ h₂ =>
          congrArg₂ List.cons (congrArg₂ State.mk hs h₁) h₂

theorem suffixes_passCongr : ∀ (es : List Expr), resolvesInsideSuffixes es = true ->
    ∀ {ss ss' : List State}, nodeAttrsSuffixes true es ss = nodeAttrsSuffixes true es ss' ->
      ExceptRel (fun xs ys => nodeAttrsSuffixes false es xs = nodeAttrsSuffixes false es ys)
        (widthPassSuffixes T es ss) (widthPassSuffixes T es ss')
  | [], _, _, _, _ => rfl
  | e :: es, he, _, _, h => by
      obtain ⟨he, hes⟩ := Bool.and_eq_true_iff.mp he
      obtain ⟨heo, hei⟩ := Bool.and_eq_true_iff.mp he
      obtain ⟨h₀, h₁⟩ := List.cons.inj h
      exact ((passCongr_of_resolvesInside e hei).pass none (fun _ => heo) h₀).bind fun _ _ _ hs =>
        (suffixes_passCongr es hes h₁).bind fun _ _ _ hss => congrArg₂ List.cons hs hss

end

theorem nodeAttrs_runCalls_getValue {e : Expr} : ∀ (cs : List Call), (∀ c ∈ cs, c = .getValue) ->
    ∀ {s s' : State}, runCalls T e cs s = .ok s' -> nodeAttrs true e s' = nodeAttrs true e s
  | [], _, _, _, h => by
      obtain rfl := Except.ok.inj h
      rfl
  | c :: cs, hcs, _, _, h => by
      obtain ⟨s₁, h₁, h⟩ := (runCalls_cons_eq_ok T).mp h
      obtain rfl := hcs c (List.mem_cons_self _ _)
      obtain ⟨⟨v, s₁'⟩, hv, h₁⟩ := bind_eq_ok.mp h₁
      obtain rfl := Except.ok.inj h₁
      exact (nodeAttrs_runCalls_getValue cs (fun c hc => hcs c (List.mem_cons_of_mem _ hc)) h).trans
        (nodeAttrs_getValue T e hv)

/-- On the table's trees, a second `resolve_expr_width()` after any `get_value()` calls succeeds and
restores every `expr_eval_width` and `cast_width`. -/
theorem resolveExprWidth_after_getValue_restores {e : Expr}
    (he : (resolvesOperands e && resolvesInside e) = true) {s s₁ s₂ : State}
    (h₁ : resolveExprWidth T e s = .ok s₁) (cs : List Call) (hcs : ∀ c ∈ cs, c = .getValue)
    (h₂ : runCalls T e cs s₁ = .ok s₂) :
    (resolveExprWidth T e s₂).map (nodeAttrs false e) = .ok (nodeAttrs false e s₁) := by
  obtain ⟨heo, hei⟩ := Bool.and_eq_true_iff.mp he
  have hrel := (@passCongr_of_resolvesInside T e hei).pass none (fun _ => heo)
    (nodeAttrs_runCalls_getValue cs hcs h₂)
  rw [widthPass_idem T e h₁] at hrel
  obtain ⟨s₃, h₃, hs₃⟩ := hrel.ok_right
  exact (congrArg (Except.map (nodeAttrs false e)) h₃).trans (congrArg Except.ok hs₃)

end

/-- `(4'd15 + 4'd3)[3] + 4'd1`: the first resolution gives the cast the width 4, `get_value()`
overwrites it with 3, and the second resolution writes 4 back. -/
theorem resolveExprWidth_after_getValue_restores_cast :
    ∃ s₁ s₂, resolveExprWidth .leaf (.binaryInt .add 0
        (.widthCast 0 (.binaryInt .add 0 (.intLiteral 0 15 4) (.intLiteral 0 3 4)) 3)
        (.intLiteral 0 1 4)) .fresh = .ok s₁ ∧
      runCalls .leaf (.binaryInt .add 0
        (.widthCast 0 (.binaryInt .add 0 (.intLiteral 0 15 4) (.intLiteral 0 3 4)) 3)
        (.intLiteral 0 1 4)) [.getValue] s₁ = .ok s₂ ∧
      (s₁.op 0).slot.exprEvalWidth = some 4 ∧ (s₂.op 0).slot.exprEvalWidth = some 3 ∧
      (resolveExprWidth .leaf (.binaryInt .add 0
        (.widthCast 0 (.binaryInt .add 0 (.intLiteral 0 15 4) (.intLiteral 0 3 4)) 3)
        (.intLiteral 0 1 4)) s₂).map (nodeAttrs false (.binaryInt .add 0
        (.widthCast 0 (.binaryInt .add 0 (.intLiteral 0 15 4) (.intLiteral 0 3 4)) 3)
        (.intLiteral 0 1 4))) =
        .ok (nodeAttrs false (.binaryInt .add 0
        (.widthCast 0 (.binaryInt .add 0 (.intLiteral 0 15 4) (.intLiteral 0 3 4)) 3)
        (.intLiteral 0 1 4)) s₁) :=
  ⟨_, _, rfl, rfl, rfl, rfl, resolveExprWidth_after_getValue_restores (by rfl) (by rfl) [.getValue]
    (by decide) (by rfl)⟩

end RdlExpressions
