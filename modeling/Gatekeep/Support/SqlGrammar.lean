import Gatekeep.Support.SqlTokens

/-!
# Gatekeep.Support.SqlGrammar

SQL expressions read from tokens. `nest` finds the brackets, `(` with `)` and `CASE` with `END`, and
reads the contents of each pair when it closes. What stands between brackets is flat, and is read by
splitting it at the operators that bind loosest: `OR`, then `AND`, then `NOT`, then `IS` and the
comparisons. Brackets, names, calls and placeholders are operands.

What is no expression of this grammar, such as a subquery or a sum, is kept as it stands.
-/

namespace SqlSyntax

variable {α : Type}

mutual

/-- An expression; placeholders stand for `α`. Parentheses leave no trace. -/
inductive Expr (α : Type) where
  | word (text : String)
  | quoted (text : String)
  | value (a : α)
  | call (name : String) (args : List (Expr α))
  | row (es : List (Expr α))
  | caseWhen (arms : List (Expr α × Expr α)) (otherwise : Option (Expr α))
  | compare (operator : String) (left right : Expr α)
  | is (operand : Expr α) (negated : Bool) (test : String)
  | not (e : Expr α)
  | and (es : List (Expr α))
  | or (es : List (Expr α))
  | unread (items : List (Item α))

/-- A token, or what a pair of brackets holds. -/
inductive Item (α : Type) where
  | token (t : Token α)
  | parens (args : List (Expr α))
  | block (e : Expr α)

end

namespace Item

def isKeyword (k : Keyword) : Item α → Bool
  | .token (.lexeme (.keyword k')) => k' == k
  | _ => false

def isSymbol (c : Char) : Item α → Bool
  | .token (.lexeme (.symbol c')) => c' == c
  | _ => false

/-- The characters that operators are made of. -/
def operator? : Item α → Option Char
  | .token (.lexeme (.symbol c)) => if c == ',' then none else some c
  | _ => none

/-- What ends an expression rather than being part of it. -/
def isSeparator (item : Item α) : Bool :=
  item.isSymbol ',' || item.isKeyword .whenBranch || item.isKeyword .thenBranch ||
    item.isKeyword .elseBranch

end Item

/-! ## Reading -/

/-- One expression is itself; several are combined. -/
def combined (combine : List (Expr α) → Expr α) : List (Expr α) → Expr α
  | [e] => e
  | es => combine es

def readPrimary : List (Item α) → Option (Expr α)
  | [.token (.lexeme (.word text))] => some (.word text)
  | [.token (.lexeme (.quoted text))] => some (.quoted text)
  | [.token (.placeholder a)] => some (.value a)
  | [.parens args] => some (combined .row args)
  | [.block e] => some e
  | [.token (.lexeme (.word name)), .parens args] => some (.call name args)
  | _ => none

def readComparison (items : List (Item α)) : Option (Expr α) :=
  let left := items.takeWhile fun item => item.operator?.isNone
  let rest := items.dropWhile fun item => item.operator?.isNone
  if rest.isEmpty then readPrimary left
  else do
    let operator := rest.takeWhile fun item => item.operator?.isSome
    let l ← readPrimary left
    let r ← readPrimary (rest.dropWhile fun item => item.operator?.isSome)
    return .compare (String.ofList (operator.filterMap Item.operator?)) l r

/-- Operators that bind tighter than comparisons are left as they stand. -/
def readOperand (items : List (Item α)) : Option (Expr α) :=
  if items.isEmpty then none else some ((readComparison items).getD (.unread items))

def readTest (items : List (Item α)) : Option (Expr α) :=
  match items.splitOnP (Item.isKeyword .is) with
  | [operand] => readOperand operand
  | [operand, [.token (.lexeme (.word test))]] => (readOperand operand).map (.is · false test)
  | [operand, [.token (.lexeme (.keyword .not)), .token (.lexeme (.word test))]] =>
    (readOperand operand).map (.is · true test)
  | _ => none

def readNot : List (Item α) → Option (Expr α)
  | .token (.lexeme (.keyword .not)) :: items => (readNot items).map .not
  | items => readTest items

def readAnd (items : List (Item α)) : Option (Expr α) :=
  ((items.splitOnP (Item.isKeyword .and)).mapM readNot).map (combined .and)

def readOr (items : List (Item α)) : Option (Expr α) :=
  ((items.splitOnP (Item.isKeyword .or)).mapM readAnd).map (combined .or)

def readExpr (items : List (Item α)) : Option (Expr α) :=
  if items.any Item.isSeparator then none else readOr items

/-- The expressions between parentheses. -/
def readArgs (items : List (Item α)) : List (Expr α) :=
  if items.isEmpty then []
  else
    match (items.splitOnP (Item.isSymbol ',')).mapM readExpr with
    | some es => es
    | none => [.unread items]

def readArm (arm : List (Item α)) : Option (Expr α × Expr α) :=
  match arm.splitOnP (Item.isKeyword .thenBranch) with
  | [condition, result] => do return (← readExpr condition, ← readExpr result)
  | _ => none

def readArms (body : List (Item α)) : Option (List (Expr α × Expr α)) :=
  match body.splitOnP (Item.isKeyword .whenBranch) with
  | [] :: arm :: arms => (arm :: arms).mapM readArm
  | _ => none

/-- What stands between `CASE` and `END`. -/
def readCase (items : List (Item α)) : Option (Expr α) :=
  match items.splitOnP (Item.isKeyword .elseBranch) with
  | [body] => do return .caseWhen (← readArms body) none
  | [body, otherwise] => do return .caseWhen (← readArms body) (some (← readExpr otherwise))
  | _ => none

/-! ## Brackets -/

inductive Bracket where
  | paren
  | caseEnd
deriving DecidableEq

def opens : Token α → Option Bracket
  | .lexeme (.symbol c) => if c == '(' then some .paren else none
  | .lexeme (.keyword .caseStart) => some .caseEnd
  | _ => none

def closes : Token α → Option Bracket
  | .lexeme (.symbol c) => if c == ')' then some .paren else none
  | .lexeme (.keyword .caseEnd) => some .caseEnd
  | _ => none

def bracketed : Bracket → List (Item α) → Item α
  | .paren, items => .parens (readArgs items)
  | .caseEnd, items => .block ((readCase items).getD (.unread items))

/-- The items since the last open bracket, and the open brackets with the items before each. -/
structure Nesting (α : Type) where
  items : List (Item α)
  outer : List (Bracket × List (Item α))

def nestStep (n : Nesting α) (t : Token α) : Option (Nesting α) :=
  match opens t with
  | some b => some ⟨[], (b, n.items) :: n.outer⟩
  | none =>
    match closes t with
    | some b =>
      match n.outer with
      | [] => none
      | (b', items) :: outer =>
        if b' = b then some ⟨items ++ [bracketed b n.items], outer⟩ else none
    | none => some ⟨n.items ++ [.token t], n.outer⟩

/-- The items of a text whose brackets are balanced. -/
def nest (ts : List (Token α)) : Option (List (Item α)) :=
  match ts.foldlM nestStep ⟨[], []⟩ with
  | some ⟨items, []⟩ => some items
  | _ => none

/-- The expression of a text, with the values bound to its placeholders. -/
def readSql (d : Dialect) (text : String) (bound : List α) : Option (Expr α) := do
  let marked ← lex d text.toList
  let tokens ← fill bound 0 marked
  let items ← nest tokens
  readExpr items

example : readSql ⟨true, false⟩ "NOT a = $1 AND b OR c IS TRUE" [7] =
    some (.or [.and [.not (.compare "=" (.word "a") (.value 7)), .word "b"],
      .is (.word "c") false "TRUE"]) := by rfl

/-! ## Balanced pieces -/

/-- Wherever the tokens stand, they leave the open brackets alone and add these items. -/
def Nests (ts : List (Token α)) (items : List (Item α)) : Prop :=
  ∀ before outer, ts.foldlM nestStep ⟨before, outer⟩ = some ⟨before ++ items, outer⟩

/-- A nesting inside another. -/
def under (before : List (Item α)) (outer : List (Bracket × List (Item α))) :
    List (Item α) → List (Bracket × List (Item α)) → Nesting α
  | items, [] => ⟨before ++ items, outer⟩
  | items, (b, previous) :: rest =>
    ⟨items, (b, (under before outer previous rest).items) ::
      (under before outer previous rest).outer⟩

theorem under_append (before : List (Item α)) (outer rest : List (Bracket × List (Item α)))
    (items more : List (Item α)) :
    under before outer (items ++ more) rest =
      ⟨(under before outer items rest).items ++ more, (under before outer items rest).outer⟩ := by
  cases rest with
  | nil =>
    rw [under, under, List.append_assoc]
  | cons frame rest => rfl

theorem nestStep_under (before : List (Item α)) (outer : List (Bracket × List (Item α)))
    {n n' : Nesting α} {t : Token α} (h : nestStep n t = some n') :
    nestStep (under before outer n.items n.outer) t =
      some (under before outer n'.items n'.outer) := by
  obtain ⟨items, opened⟩ := n
  unfold nestStep at h ⊢
  cases ho : opens t with
  | some b =>
    rw [ho] at h
    cases h
    rfl
  | none =>
    rw [ho] at h
    cases hc : closes t with
    | none =>
      rw [hc] at h
      cases h
      simp only [under_append]
    | some b =>
      rw [hc] at h
      cases opened with
      | nil => cases h
      | cons frame rest =>
        obtain ⟨b', previous⟩ := frame
        simp only at h ⊢
        split at h
        · rename_i hb
          cases h
          simp only [under, hb, if_true, under_append]
        · cases h

theorem foldlM_under (before : List (Item α)) (outer : List (Bracket × List (Item α)))
    (ts : List (Token α)) : ∀ {n n' : Nesting α}, ts.foldlM nestStep n = some n' →
      ts.foldlM nestStep (under before outer n.items n.outer) =
        some (under before outer n'.items n'.outer) := by
  induction ts with
  | nil =>
    intro n n' h
    cases h
    rfl
  | cons t ts ih =>
    intro n n' h
    rw [List.foldlM_cons] at h ⊢
    obtain ⟨n₁, hstep, hrest⟩ := Option.bind_eq_some_iff.mp h
    rw [nestStep_under before outer hstep]
    exact ih hrest

theorem nests_iff {ts : List (Token α)} {items : List (Item α)} :
    Nests ts items ↔ nest ts = some items := by
  constructor
  · intro h
    rw [nest, h [] []]
    rfl
  · intro h before outer
    unfold nest at h
    split at h
    · rename_i items' hrun
      cases h
      have hunder := foldlM_under before outer ts hrun
      simpa only [under, List.append_nil] using hunder
    · cases h

namespace Nests

variable {s t : List (Token α)} {x y : List (Item α)}

theorem append (hs : Nests s x) (ht : Nests t y) : Nests (s ++ t) (x ++ y) := by
  intro before outer
  rw [List.foldlM_append, hs, ← List.append_assoc]
  exact ht (before ++ x) outer

/-- Tokens that are no brackets. -/
theorem plain (h : ∀ t ∈ s, opens t = none ∧ closes t = none) : Nests s (s.map .token) := by
  induction s with
  | nil =>
    intro before outer
    rw [List.map_nil, List.append_nil]
    rfl
  | cons t s ih =>
    obtain ⟨⟨ho, hc⟩, hs⟩ := List.forall_mem_cons.mp h
    have hfirst : Nests [t] [.token t] := by
      intro before outer
      rw [List.foldlM_cons, nestStep, ho, hc]
      rfl
    exact hfirst.append (ih hs)

theorem bracket {b : Bracket} {first last : Token α} (hfirst : opens first = some b)
    (hnext : opens last = none) (hlast : closes last = some b) (hs : Nests s x) :
    Nests (first :: s ++ [last]) [bracketed b x] := by
  intro before outer
  have hopen : nestStep ⟨before, outer⟩ first = some ⟨[], (b, before) :: outer⟩ := by
    rw [nestStep, hfirst]
  have hclose : nestStep ⟨x, (b, before) :: outer⟩ last =
      some ⟨before ++ [bracketed b x], outer⟩ := by
    rw [nestStep, hnext, hlast]
    exact if_pos rfl
  rw [List.cons_append, List.foldlM_cons, hopen, Option.bind_eq_bind, Option.bind_some,
    List.foldlM_append, hs, List.nil_append, Option.bind_eq_bind, Option.bind_some,
    List.foldlM_cons, hclose]
  rfl

end Nests

/-! ## Reading what builders write -/

theorem splitOnP_separated {β : Type} {p : β → Bool} {sep : β} (hsep : p sep = true)
    {first : List β} {rest : List (List β)} (hfirst : ∀ a ∈ first, p a = false)
    (hrest : ∀ piece ∈ rest, ∀ a ∈ piece, p a = false) :
    (first ++ rest.flatMap (sep :: ·)).splitOnP p = first :: rest := by
  induction rest generalizing first with
  | nil => rw [List.flatMap_nil, List.append_nil, List.splitOnP_eq_singleton hfirst]
  | cons piece rest ih =>
    obtain ⟨hpiece, hrest⟩ := List.forall_mem_cons.mp hrest
    rw [List.flatMap_cons, List.cons_append,
      List.splitOnP_append_cons_of_forall_mem hfirst sep hsep, ih hpiece hrest]

theorem mapM_of_forall₂ {β γ : Type} {f : β → Option γ} {xs : List β} {ys : List γ}
    (h : List.Forall₂ (fun x y => f x = some y) xs ys) : xs.mapM f = some ys := by
  induction h with
  | nil => rfl
  | cons hx _ ih =>
    rw [List.mapM_cons, hx, ih]
    rfl

theorem not_isSeparator_of_readExpr {items : List (Item α)} {e : Expr α}
    (h : readExpr items = some e) : ∀ item ∈ items, item.isSeparator = false := by
  unfold readExpr at h
  split at h
  · cases h
  · rename_i hsep
    intro item hitem
    by_contra hi
    exact hsep (List.any_eq_true.mpr ⟨item, hitem, by simpa using hi⟩)

theorem ne_nil_of_readExpr {items : List (Item α)} {e : Expr α} (h : readExpr items = some e) :
    items ≠ [] := by
  rintro rfl
  cases h

namespace Item

variable {item : Item α}

theorem not_comma (h : item.isSeparator = false) : item.isSymbol ',' = false := by
  simp only [isSeparator, Bool.or_eq_false_iff] at h
  exact h.1.1.1

theorem not_when (h : item.isSeparator = false) : item.isKeyword .whenBranch = false := by
  simp only [isSeparator, Bool.or_eq_false_iff] at h
  exact h.1.1.2

theorem not_then (h : item.isSeparator = false) : item.isKeyword .thenBranch = false := by
  simp only [isSeparator, Bool.or_eq_false_iff] at h
  exact h.1.2

theorem not_else (h : item.isSeparator = false) : item.isKeyword .elseBranch = false := by
  simp only [isSeparator, Bool.or_eq_false_iff] at h
  exact h.2

def ofKeyword (k : Keyword) : Item α := .token (.lexeme (.keyword k))

end Item

open Item (ofKeyword)

/-- Operands in parentheses, with one operator between them. -/
def chained (k : Keyword) (first : Expr α) (rest : List (Expr α)) : List (Item α) :=
  [.parens [first]] ++ (rest.map fun e => [.parens [e]]).flatMap (ofKeyword k :: ·)

theorem mem_chained {k : Keyword} {first : Expr α} {rest : List (Expr α)} {item : Item α}
    (h : item ∈ chained k first rest) : item = ofKeyword k ∨ ∃ e, item = .parens [e] := by
  rcases List.mem_append.mp h with h | h
  · exact .inr ⟨first, List.mem_singleton.mp h⟩
  · obtain ⟨piece, hpiece, h⟩ := List.mem_flatMap.mp h
    obtain ⟨e, -, rfl⟩ := List.mem_map.mp hpiece
    rcases List.mem_cons.mp h with h | h
    · exact .inl h
    · exact .inr ⟨e, List.mem_singleton.mp h⟩

theorem splitOnP_chained (k : Keyword) (first : Expr α) (rest : List (Expr α)) :
    (chained k first rest).splitOnP (Item.isKeyword k) =
      (first :: rest).map fun e => [.parens [e]] := by
  rw [chained, splitOnP_separated]
  · rfl
  · exact beq_self_eq_true k
  · intro item h
    rw [List.mem_singleton.mp h]
    rfl
  · intro piece hpiece item h
    obtain ⟨e, -, rfl⟩ := List.mem_map.mp hpiece
    rw [List.mem_singleton.mp h]
    rfl

theorem mapM_parens {read : List (Item α) → Option (Expr α)}
    (hread : ∀ e, read [.parens [e]] = some e) (es : List (Expr α)) :
    (es.map fun e => [Item.parens [e]]).mapM read = some es := by
  refine mapM_of_forall₂ (List.forall₂_map_left_iff.mpr ?_)
  exact List.forall₂_same.mpr fun e _ => hread e

theorem readExpr_and (first : Expr α) (rest : List (Expr α)) :
    readExpr (chained .and first rest) = some (combined .and (first :: rest)) := by
  have hsep : (chained .and first rest).any Item.isSeparator = false := by
    rw [List.any_eq_false]
    intro item h
    rcases mem_chained h with rfl | ⟨e, rfl⟩ <;> exact Bool.false_ne_true
  have hor : (chained .and first rest).splitOnP (Item.isKeyword .or) =
      [chained .and first rest] := by
    refine List.splitOnP_eq_singleton fun item h => ?_
    rcases mem_chained h with rfl | ⟨e, rfl⟩ <;> rfl
  have hand : readAnd (chained .and first rest) = some (combined .and (first :: rest)) := by
    rw [readAnd, splitOnP_chained, mapM_parens fun _ => rfl]
    rfl
  rw [readExpr, hsep, if_neg Bool.false_ne_true, readOr, hor, List.mapM_cons, hand]
  rfl

theorem readExpr_or (first : Expr α) (rest : List (Expr α)) :
    readExpr (chained .or first rest) = some (combined .or (first :: rest)) := by
  have hsep : (chained .or first rest).any Item.isSeparator = false := by
    rw [List.any_eq_false]
    intro item h
    rcases mem_chained h with rfl | ⟨e, rfl⟩ <;> exact Bool.false_ne_true
  rw [readExpr, hsep, if_neg Bool.false_ne_true, readOr, splitOnP_chained,
    mapM_parens fun _ => rfl]
  rfl

/-- Between pieces that are expressions by themselves there is no separator but the ones put there. -/
theorem not_isSeparator_of_forall₂ {pieces : List (List (Item α))} {es : List (Expr α)}
    (h : List.Forall₂ (fun items e => readExpr items = some e) pieces es) :
    ∀ items ∈ pieces, ∀ item ∈ items, item.isSeparator = false := by
  have hand := h.imp fun items e hread => And.intro (not_isSeparator_of_readExpr hread) hread
  exact ((List.forall₂_and_left pieces es).mp hand).1

theorem readArgs_separated {first : List (Item α)} {rest : List (List (Item α))} {e : Expr α}
    {es : List (Expr α)} (hfirst : readExpr first = some e)
    (hrest : List.Forall₂ (fun items e => readExpr items = some e) rest es) :
    readArgs (first ++ rest.flatMap (.token (.lexeme (.symbol ',')) :: ·)) = e :: es := by
  have hne : first ++ rest.flatMap (.token (.lexeme (.symbol ',')) :: ·) ≠ [] := fun h =>
    ne_nil_of_readExpr hfirst (List.append_eq_nil_iff.mp h).1
  rw [readArgs, List.isEmpty_eq_false_iff.mpr hne, if_neg Bool.false_ne_true,
    splitOnP_separated rfl
      (fun item hitem => Item.not_comma (not_isSeparator_of_readExpr hfirst item hitem))
      (fun items hitems item hitem =>
        Item.not_comma (not_isSeparator_of_forall₂ hrest items hitems item hitem)),
    mapM_of_forall₂ (.cons hfirst hrest)]

theorem readArgs_of_readExpr {items : List (Item α)} {e : Expr α} (h : readExpr items = some e) :
    readArgs items = [e] := by
  have hone := readArgs_separated h .nil
  rwa [List.flatMap_nil, List.append_nil] at hone

/-- The items of an arm. -/
def armItems (arm : List (Item α) × List (Item α)) : List (Item α) :=
  arm.1 ++ ofKeyword .thenBranch :: arm.2

/-- Condition and result of an arm are expressions. -/
structure ReadsArm (arm : List (Item α) × List (Item α)) (e : Expr α × Expr α) : Prop where
  condition : readExpr arm.1 = some e.1
  result : readExpr arm.2 = some e.2

namespace ReadsArm

variable {arm : List (Item α) × List (Item α)} {e : Expr α × Expr α}

theorem readArm_eq (h : ReadsArm arm e) : readArm (armItems arm) = some e := by
  have hthen : ∀ item ∈ arm.1, item.isKeyword .thenBranch = false := fun item hitem =>
    Item.not_then (not_isSeparator_of_readExpr h.condition item hitem)
  have hend : ∀ item ∈ arm.2, item.isKeyword .thenBranch = false := fun item hitem =>
    Item.not_then (not_isSeparator_of_readExpr h.result item hitem)
  rw [readArm, armItems, List.splitOnP_append_cons_of_forall_mem hthen _ rfl,
    List.splitOnP_eq_singleton hend]
  simp only [h.condition, h.result]
  rfl

theorem mem_armItems (h : ReadsArm arm e) {item : Item α} (hitem : item ∈ armItems arm) :
    item = ofKeyword .thenBranch ∨ item.isSeparator = false := by
  rcases List.mem_append.mp hitem with hitem | hitem
  · exact .inr (not_isSeparator_of_readExpr h.condition item hitem)
  · rcases List.mem_cons.mp hitem with hitem | hitem
    · exact .inl hitem
    · exact .inr (not_isSeparator_of_readExpr h.result item hitem)

end ReadsArm

/-- `CASE` with arms and an `ELSE`. -/
theorem readCase_arms {arms : List (List (Item α) × List (Item α))} {es : List (Expr α × Expr α)}
    {otherwise : List (Item α)} {e : Expr α} (hne : arms ≠ [])
    (harms : List.Forall₂ ReadsArm arms es) (hotherwise : readExpr otherwise = some e) :
    readCase ((arms.map armItems).flatMap (ofKeyword .whenBranch :: ·) ++
      ofKeyword .elseBranch :: otherwise) = some (.caseWhen es (some e)) := by
  have hmem : ∀ arm ∈ arms, ∀ item ∈ armItems arm,
      item = ofKeyword .thenBranch ∨ item.isSeparator = false := by
    have hand := harms.imp fun arm e h =>
      And.intro (fun item (hitem : item ∈ armItems arm) => h.mem_armItems hitem) h
    exact ((List.forall₂_and_left arms es).mp hand).1
  have hwhen : ∀ piece ∈ arms.map armItems, ∀ item ∈ piece,
      item.isKeyword .whenBranch = false := by
    intro piece hpiece item hitem
    obtain ⟨arm, harm, rfl⟩ := List.mem_map.mp hpiece
    rcases hmem arm harm item hitem with rfl | h
    · rfl
    · exact Item.not_when h
  have helse : ∀ item ∈ (arms.map armItems).flatMap (ofKeyword .whenBranch :: ·),
      item.isKeyword .elseBranch = false := by
    intro item h
    obtain ⟨piece, hpiece, h⟩ := List.mem_flatMap.mp h
    obtain ⟨arm, harm, rfl⟩ := List.mem_map.mp hpiece
    rcases List.mem_cons.mp h with rfl | h
    · rfl
    · rcases hmem arm harm item h with rfl | h
      · rfl
      · exact Item.not_else h
  have hread : readArms ((arms.map armItems).flatMap (ofKeyword .whenBranch :: ·)) = some es := by
    have hsplit : ([] ++ (arms.map armItems).flatMap (ofKeyword .whenBranch :: ·)).splitOnP
        (Item.isKeyword .whenBranch) = [] :: arms.map armItems :=
      splitOnP_separated rfl (fun item h => absurd h List.not_mem_nil) hwhen
    rw [List.nil_append] at hsplit
    have heach : (arms.map armItems).mapM readArm = some es :=
      mapM_of_forall₂ (List.forall₂_map_left_iff.mpr
        (harms.imp fun arm e h => h.readArm_eq))
    cases arms with
    | nil => exact absurd rfl hne
    | cons arm arms =>
      rw [readArms, hsplit]
      exact heach
  rw [readCase, List.splitOnP_append_cons_of_forall_mem helse _ rfl,
    List.splitOnP_eq_singleton fun item hitem =>
      Item.not_else (not_isSeparator_of_readExpr hotherwise item hitem)]
  simp only [hread, hotherwise]
  rfl

end SqlSyntax
