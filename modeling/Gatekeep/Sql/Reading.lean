import Gatekeep.Sql.Binding
import Gatekeep.Sql.Builds
import Gatekeep.Support.SqlGrammar

/-!
# Gatekeep.Sql.Reading

Generated SQL read back. Some builders put parentheses around what they are given and some do not,
and the same predicate may stand in several places. `tree` is the expression a fragment was built
as, with an application's predicates as what they read as by themselves. The text of a lowered filter
or grade, with the values bound to its placeholders, is read as that expression
(`lowered_sql_reads`).

A predicate stands in parentheses wherever it is used, so it only has to be complete: its tokens end
where it ends and its brackets are balanced.
-/

namespace Gatekeep

open SqlSyntax
open SqlSyntax.Item (ofKeyword)

def Backend.dialect : Backend → Dialect
  | .postgres => ⟨true, false⟩
  | .sqlite => ⟨false, false⟩
  | .mysql => ⟨false, true⟩

/-- The value of a bind marker. -/
def SqlPart.bound : SqlPart → Option SqlxValue
  | .text _ => none
  | .bind value => some value

/-! ## The expression of a fragment -/

/-- What SQL supplied by the application reads as between parentheses. -/
def SqlPart.readArgs (b : Backend) (ps : List SqlPart) : List (Expr SqlxValue) :=
  ((lex b.dialect (SqlxFragment.render b ps 0).toList).bind fun marked =>
    (fill (ps.filterMap SqlPart.bound) 0 marked).bind fun tokens =>
      (nest tokens).map SqlSyntax.readArgs).getD []

def Connective.combine : Connective → List (Expr SqlxValue) → Expr SqlxValue
  | .and => .and
  | .or => .or

namespace SqlxFragment

mutual

/-- The expression a fragment was built as. -/
def tree (b : Backend) : SqlxFragment → Expr SqlxValue
  | .trusted constant => .word constant.sql
  | .raw parts => combined .row (SqlPart.readArgs b parts)
  | .bind value => .value value
  | .tenantEquals column tenant => .compare "=" (.word column) (.value (.text tenant))
  | .not inner => .not (tree b inner)
  -- no fragments render as FALSE, whatever the connective
  | .binary _ [] => .word "FALSE"
  | .binary connective (first :: rest) =>
    combined connective.combine (tree b first :: treeEach b rest)
  | .function f fragments => .call (b.functionName f) (treeEach b fragments)
  | .caseWhen condition thenExpr elseExpr =>
    .caseWhen [(tree b condition, tree b thenExpr)] (some (tree b elseExpr))
  | .isTrue predicate =>
    .is (combined .row (SqlPart.readArgs b (predicate.parts b))) false "TRUE"
  | .nullSafeGradePair f left right =>
    .caseWhen
      [(.is (tree b left) false "NULL", tree b right), (.is (tree b right) false "NULL", tree b left)]
      (some (.call (b.functionName f) [tree b left, tree b right]))

def treeEach (b : Backend) : List SqlxFragment → List (Expr SqlxValue)
  | [] => []
  | f :: fs => tree b f :: treeEach b fs

end

end SqlxFragment

/-! ## Parts as tokens -/

namespace SqlPart

open SqlxFragment (render)

variable {b : Backend} {ps qs : List SqlPart} {ts us : List (Token SqlxValue)}

theorem lex_placeholder (b : Backend) (n : Nat) :
    lex b.dialect (b.placeholder n).toList = some [.placeholder (b.dialect.mark n)] := by
  cases b with
  | postgres =>
    rw [Backend.placeholder, String.toList_append, Decimal.toList_toString]
    exact lex_parameter rfl n
  | sqlite =>
    rw [Backend.placeholder]
    exact lex_questionMark (d := Backend.sqlite.dialect) rfl
  | mysql =>
    rw [Backend.placeholder]
    exact lex_questionMark (d := Backend.mysql.dialect) rfl

theorem render_append (ps qs : List SqlPart) (n : Nat) :
    render b (ps ++ qs) n =
      render b ps n ++ render b qs (n + (ps.filterMap SqlPart.bound).length) := by
  induction ps generalizing n with
  | nil => simp [render]
  | cons p ps ih =>
    cases p with
    | text sql =>
      rw [List.cons_append, render, render, ih, String.append_assoc, List.filterMap_cons_none rfl]
    | bind value =>
      have hbound : (SqlPart.bind value :: ps).filterMap SqlPart.bound =
          value :: ps.filterMap SqlPart.bound := rfl
      rw [List.cons_append, render, render, ih, String.append_assoc, hbound, List.length_cons,
        Nat.add_right_comm, Nat.add_assoc n]

/-- The parts are complete: from wherever their placeholders are counted, their text has these
tokens, and its placeholders are their binds. -/
structure Complete (b : Backend) (ps : List SqlPart) (ts : List (Token SqlxValue)) : Prop where
  values : values ts = ps.filterMap SqlPart.bound
  lexed : ∀ n, lex b.dialect (render b ps n).toList = some (label b.dialect n ts)

def lexemes (ls : List Lexeme) : List (Token SqlxValue) := ls.map .lexeme

def marked (ls : List Lexeme) : List (Token Mark) := ls.map .lexeme

theorem label_lexemes (n : Nat) (ls : List Lexeme) :
    label b.dialect n (lexemes ls) = marked ls := by
  induction ls with
  | nil => rfl
  | cons l ls ih => exact congrArg (.lexeme l :: ·) ih

theorem values_lexemes (ls : List Lexeme) : values (lexemes ls) = [] := by
  induction ls with
  | nil => rfl
  | cons l ls ih => exact ih

/-- The first character of the parts ends the token before it. -/
def StartsApart (b : Backend) (ps : List SqlPart) : Prop :=
  ∀ n, ∀ c ∈ (render b ps n).toList.head?, isBoundary c = true

namespace Complete

theorem text {sql : String} {ls : List Lexeme} (hne : sql ≠ "")
    (h : lex b.dialect sql.toList = some (marked ls)) :
    Complete b (SqlPart.trusted sql) (lexemes ls) where
  values := by
    rw [values_lexemes, SqlPart.trusted, if_neg (by simpa using hne)]
    rfl
  lexed n := by
    rw [label_lexemes, SqlPart.trusted, if_neg (by simpa using hne)]
    simpa [render] using h

theorem bind (value : SqlxValue) : Complete b [.bind value] [.placeholder value] where
  values := rfl
  lexed n := by
    rw [render, render, String.append_empty, lex_placeholder]
    rfl

/-- The binds, put in the place of the placeholders. -/
theorem fill (h : Complete b ps ts) :
    fill (ps.filterMap SqlPart.bound) 0 (label b.dialect 0 ts) = some ts := by
  have hall : (ps.filterMap SqlPart.bound).drop 0 = SqlSyntax.values ts ++ [] := by
    rw [List.drop_zero, List.append_nil, h.values]
  exact fill_label 0 ts hall

theorem append (hp : Complete b ps ts) (hq : Complete b qs us) (hapart : StartsApart b qs) :
    Complete b (ps ++ qs) (ts ++ us) where
  values := by rw [values_append, List.filterMap_append, hp.values, hq.values]
  lexed n := by
    rw [render_append, String.toList_append, label_append, hp.values]
    exact lex_append (hp.lexed n) (hq.lexed _) (hapart _)

end Complete

/-! ## Fixed texts -/

/-- A text in front of a piece: it leaves nothing open. -/
structure Opens (b : Backend) (sql : String) (ls : List Lexeme) : Prop where
  nonempty : sql ≠ ""
  settles : Settles b.dialect sql.toList (marked ls)

/-- A text behind a piece: it ends the last token of the piece. -/
structure Ends (b : Backend) (sql : String) (ls : List Lexeme) : Prop where
  nonempty : sql ≠ ""
  lexed : lex b.dialect sql.toList = some (marked ls)
  apart : sql.toList.head?.all isBoundary = true

/-- A text between two pieces. -/
structure Joins (b : Backend) (sql : String) (ls : List Lexeme) : Prop extends Opens b sql ls where
  apart : sql.toList.head?.all isBoundary = true

theorem startsApart_trusted {sql : String} (hne : sql ≠ "")
    (hapart : sql.toList.head?.all isBoundary = true) (qs : List SqlPart) :
    StartsApart b (SqlPart.trusted sql ++ qs) := by
  intro n c hc
  rw [SqlPart.trusted, if_neg (by simpa using hne), List.singleton_append, render,
    String.toList_append] at hc
  cases hchars : sql.toList with
  | nil => exact absurd (String.toList_eq_nil_iff.mp hchars) hne
  | cons c' cs =>
    rw [hchars] at hc hapart
    cases hc
    exact hapart

namespace Complete

/-- Text in front that leaves nothing open. -/
theorem after {sql : String} {ls : List Lexeme} (h : Opens b sql ls) (hq : Complete b qs us) :
    Complete b (SqlPart.trusted sql ++ qs) (lexemes ls ++ us) where
  values := by
    rw [values_append, values_lexemes, List.filterMap_append, hq.values, SqlPart.trusted,
      if_neg (by simpa using h.nonempty)]
    rfl
  lexed n := by
    rw [label_append, label_lexemes, values_lexemes, SqlPart.trusted,
      if_neg (by simpa using h.nonempty), List.singleton_append, render, String.toList_append]
    exact lex_of_settles h.settles (hq.lexed n)

theorem before {sql : String} {ls : List Lexeme} (hp : Complete b ps ts) (h : Ends b sql ls) :
    Complete b (ps ++ SqlPart.trusted sql) (ts ++ lexemes ls) := by
  have hapart := startsApart_trusted (b := b) h.nonempty h.apart []
  rw [List.append_nil] at hapart
  exact hp.append (.text h.nonempty h.lexed) hapart

theorem join {sql : String} {ls : List Lexeme} (hp : Complete b ps ts) (h : Joins b sql ls)
    (hq : Complete b qs us) :
    Complete b (ps ++ SqlPart.trusted sql ++ qs) (ts ++ lexemes ls ++ us) := by
  rw [List.append_assoc, List.append_assoc]
  exact hp.append (.after h.toOpens hq) (startsApart_trusted h.nonempty h.apart qs)

end Complete

/-! ## Parts as items -/

/-- The parts are complete, and with their brackets closed they are these items. -/
def Yields (b : Backend) (ps : List SqlPart) (items : List (Item SqlxValue)) : Prop :=
  ∃ ts, Complete b ps ts ∧ Nests ts items

/-- Complete SQL with balanced brackets. -/
def Whole (b : Backend) (ps : List SqlPart) : Prop := ∃ items, Yields b ps items

/-- Lexemes that are no brackets. -/
def Plain (ls : List Lexeme) : Prop :=
  ∀ l ∈ ls, opens (.lexeme l : Token SqlxValue) = none ∧ closes (.lexeme l : Token SqlxValue) = none

instance Plain.decidable (ls : List Lexeme) : Decidable (Plain ls) :=
  inferInstanceAs (Decidable (∀ l ∈ ls, _))

def itemsOf (ls : List Lexeme) : List (Item SqlxValue) := ls.map fun l => .token (.lexeme l)

theorem nests_plain {ls : List Lexeme} (h : Plain ls) : Nests (lexemes ls) (itemsOf ls) := by
  have hplain : Nests (lexemes ls) ((lexemes ls).map .token) := by
    refine Nests.plain fun t ht => ?_
    obtain ⟨l, hl, rfl⟩ := List.mem_map.mp ht
    exact h l hl
  rwa [lexemes, List.map_map] at hplain

namespace Yields

variable {x y : List (Item SqlxValue)}

theorem text {sql : String} {ls : List Lexeme} (hne : sql ≠ "")
    (h : lex b.dialect sql.toList = some (marked ls)) (hplain : Plain ls) :
    Yields b (SqlPart.trusted sql) (itemsOf ls) :=
  ⟨_, .text hne h, nests_plain hplain⟩

theorem bind (value : SqlxValue) : Yields b [.bind value] [.token (.placeholder value)] := by
  refine ⟨_, .bind value, ?_⟩
  exact Nests.plain (s := [.placeholder value]) fun t ht => by
    cases List.mem_singleton.mp ht
    exact ⟨rfl, rfl⟩

theorem append (hp : Yields b ps x) (hq : Yields b qs y) (hapart : StartsApart b qs) :
    Yields b (ps ++ qs) (x ++ y) := by
  obtain ⟨ts, hts, hx⟩ := hp
  obtain ⟨us, hus, hy⟩ := hq
  exact ⟨_, hts.append hus hapart, hx.append hy⟩

theorem after {sql : String} {ls : List Lexeme} (h : Opens b sql ls) (hplain : Plain ls)
    (hq : Yields b qs y) : Yields b (SqlPart.trusted sql ++ qs) (itemsOf ls ++ y) := by
  obtain ⟨us, hus, hy⟩ := hq
  exact ⟨_, .after h hus, (nests_plain hplain).append hy⟩

theorem join {sql : String} {ls : List Lexeme} (hp : Yields b ps x) (h : Joins b sql ls)
    (hplain : Plain ls) (hq : Yields b qs y) :
    Yields b (ps ++ SqlPart.trusted sql ++ qs) (x ++ itemsOf ls ++ y) := by
  obtain ⟨ts, hts, hx⟩ := hp
  obtain ⟨us, hus, hy⟩ := hq
  exact ⟨_, hts.join h hus, (hx.append (nests_plain hplain)).append hy⟩

/-- Pieces with a fixed text between them. -/
theorem joined {sql : String} {ls : List Lexeme} (h : Joins b sql ls) (hplain : Plain ls)
    {pieces : List (List SqlPart)} {ys : List (List (Item SqlxValue))}
    (hrest : List.Forall₂ (Yields b) pieces ys) : ∀ {ps x}, Yields b ps x →
      Yields b (ps ++ pieces.flatMap (SqlPart.trusted sql ++ ·))
        (x ++ ys.flatMap (itemsOf ls ++ ·)) := by
  induction hrest with
  | nil =>
    intro ps x hp
    rwa [List.flatMap_nil, List.flatMap_nil, List.append_nil, List.append_nil]
  | cons hq _ ih =>
    intro ps x hp
    have hnext := ih (hp.join h hplain hq)
    simpa only [List.flatMap_cons, List.append_assoc] using hnext

theorem nests_parens (hx : Nests ts x) :
    Nests (lexemes [.symbol '('] ++ ts ++ lexemes [.symbol ')'])
      [.parens (SqlSyntax.readArgs x)] := by
  have hbracket : Nests (.lexeme (.symbol '(') :: ts ++ [.lexeme (.symbol ')')])
      [bracketed .paren x] := Nests.bracket rfl rfl rfl hx
  exact hbracket

theorem wrapped (hp : Yields b ps x) :
    Yields b (SqlPart.wrapped ps) [.parens (SqlSyntax.readArgs x)] := by
  obtain ⟨ts, hts, hx⟩ := hp
  have hopen : Opens b "(" [.symbol '('] := ⟨by decide, by cases b <;> rfl⟩
  have hend : Ends b ")" [.symbol ')'] := ⟨by decide, by cases b <;> rfl, rfl⟩
  exact ⟨_, (Complete.after hopen hts).before hend, nests_parens hx⟩

theorem isTrue (hp : Yields b ps x) : Yields b (SqlPart.isTrue ps)
    (.parens (SqlSyntax.readArgs x) :: itemsOf [.keyword .is, .word "TRUE"]) := by
  obtain ⟨ts, hts, hx⟩ := hp
  have hopen : Opens b "(" [.symbol '('] := ⟨by decide, by cases b <;> rfl⟩
  have hend : Ends b ") IS TRUE" [.symbol ')', .keyword .is, .word "TRUE"] :=
    ⟨by decide, by cases b <;> rfl, rfl⟩
  have hplain : Plain [.keyword .is, .word "TRUE"] := by decide
  have hnests := (nests_parens hx).append (nests_plain hplain)
  rw [List.append_assoc] at hnests
  exact ⟨_, (Complete.after hopen hts).before hend, hnests⟩

/-- Whatever stands between `CASE WHEN` and `END`. -/
theorem caseBlock (hp : Yields b ps x) :
    Yields b (SqlPart.trusted "CASE WHEN " ++ ps ++ SqlPart.trusted " END")
      [bracketed .caseEnd (ofKeyword .whenBranch :: x)] := by
  obtain ⟨ts, hts, hx⟩ := hp
  have hopen : Opens b "CASE WHEN " [.keyword .caseStart, .keyword .whenBranch] :=
    ⟨by decide, by cases b <;> rfl⟩
  have hend : Ends b " END" [.keyword .caseEnd] := ⟨by decide, by cases b <;> rfl, rfl⟩
  have hwhen : Plain [.keyword .whenBranch] := by decide
  have hbracket : Nests (.lexeme (.keyword .caseStart) ::
        (lexemes [.keyword .whenBranch] ++ ts) ++ [.lexeme (.keyword .caseEnd)])
      [bracketed .caseEnd (itemsOf [.keyword .whenBranch] ++ x)] :=
    Nests.bracket rfl rfl rfl ((nests_plain hwhen).append hx)
  exact ⟨_, (Complete.after hopen hts).before hend, hbracket⟩

/-- The lowering reads its parts as `readSql` does. -/
theorem readArgs_eq (h : Yields b ps x) : SqlPart.readArgs b ps = SqlSyntax.readArgs x := by
  obtain ⟨ts, hcomplete, hnests⟩ := h
  rw [SqlPart.readArgs, hcomplete.lexed, Option.bind_some, hcomplete.fill, Option.bind_some,
    nests_iff.mp hnests]
  rfl

end Yields

end SqlPart

/-! ## Legible fragments -/

open SqlPart

variable {b : Backend}

namespace SqlxFragment

/-- The fragment's text is complete, and is read as the expression it was built as. -/
def Legible (b : Backend) (f : SqlxFragment) : Prop :=
  ∃ items, Yields b (f.parts b) items ∧ readExpr items = some (f.tree b)

variable {f g : SqlxFragment}

theorem Legible.wrapped (h : f.Legible b) :
    Yields b (SqlPart.wrapped (f.parts b)) [.parens [f.tree b]] := by
  obtain ⟨items, hitems, hread⟩ := h
  rw [← readArgs_of_readExpr hread]
  exact hitems.wrapped

theorem legible_trusted (constant : SqlConstant) : Legible b (.trusted constant) := by
  refine ⟨itemsOf [.word constant.sql], ?_, rfl⟩
  refine Yields.text ?_ ?_ ?_
  · cases constant <;> decide
  · cases b <;> cases constant <;> rfl
  · cases constant <;> decide

theorem legible_bind (value : SqlxValue) : Legible b (.bind value) := ⟨_, .bind value, rfl⟩

theorem legible_tenantEquals {column : String} (tenant : String) (hdot : '.' ∈ column.toList)
    (hword : ∀ c ∈ column.toList, isWordChar c = true) :
    Legible b (.tenantEquals column tenant) := by
  have hne : column ≠ "" := by
    rintro rfl
    cases hdot
  have hlexeme : lexemeOf column.toList = .word column := by
    rw [lexemeOf, keywordOf_dotted hdot, String.ofList_toList]
  have hcolumn : Yields b (SqlPart.trusted column) (itemsOf [.word column]) := by
    refine Yields.text hne ?_ ?_
    · rw [lex_word (by simpa using hne) hword, hlexeme]
      rfl
    · intro l hl
      cases List.mem_singleton.mp hl
      exact ⟨rfl, rfl⟩
  have hequals : Joins b " = " [.symbol '='] := ⟨⟨by decide, by cases b <;> rfl⟩, rfl⟩
  exact ⟨_, hcolumn.join hequals (by decide) (.bind (.text tenant)), rfl⟩

theorem legible_not (h : f.Legible b) : Legible b (.not f) := by
  have hnot : Opens b "NOT " [.keyword .not] := ⟨by decide, by cases b <;> rfl⟩
  exact ⟨_, Yields.after hnot (by decide) h.wrapped, rfl⟩

theorem legible_isTrue (h : Whole b (f.parts b)) : Legible b (.isTrue f) := by
  obtain ⟨items, hitems⟩ := h
  refine ⟨_, hitems.isTrue, ?_⟩
  rw [tree, hitems.readArgs_eq]
  rfl

theorem forall₂_wrapped {fs : List SqlxFragment} (h : ∀ f ∈ fs, Legible b f) :
    List.Forall₂ (Yields b) ((partsEach b fs).map SqlPart.wrapped)
      ((treeEach b fs).map fun e => [.parens [e]]) := by
  induction fs with
  | nil => exact .nil
  | cons f fs ih =>
    obtain ⟨hf, hfs⟩ := List.forall_mem_cons.mp h
    exact .cons hf.wrapped (ih hfs)

theorem legible_binary (connective : Connective) {rest : List SqlxFragment}
    (h : ∀ f' ∈ f :: rest, Legible b f') : Legible b (.binary connective (f :: rest)) := by
  obtain ⟨hf, hrest⟩ := List.forall_mem_cons.mp h
  have hparts : (binary connective (f :: rest)).parts b =
      SqlPart.wrapped (f.parts b) ++ ((partsEach b rest).map SqlPart.wrapped).flatMap
        (SqlPart.trusted connective.separator ++ ·) := by
    rw [List.flatMap_map, parts_binary]
  rw [Legible, hparts]
  cases connective with
  | and =>
    have hand : Joins b " AND " [.keyword .and] := ⟨⟨by decide, by cases b <;> rfl⟩, rfl⟩
    exact ⟨_, Yields.joined hand (by decide) (forall₂_wrapped hrest) hf.wrapped,
      readExpr_and (f.tree b) (treeEach b rest)⟩
  | or =>
    have hor : Joins b " OR " [.keyword .or] := ⟨⟨by decide, by cases b <;> rfl⟩, rfl⟩
    exact ⟨_, Yields.joined hor (by decide) (forall₂_wrapped hrest) hf.wrapped,
      readExpr_or (f.tree b) (treeEach b rest)⟩

theorem forall₂_legible {fs : List SqlxFragment} (h : ∀ f ∈ fs, Legible b f) :
    ∃ pieces, List.Forall₂ (Yields b) (partsEach b fs) pieces ∧
      List.Forall₂ (fun items e => readExpr items = some e) pieces (treeEach b fs) := by
  induction fs with
  | nil => exact ⟨[], .nil, .nil⟩
  | cons f fs ih =>
    obtain ⟨⟨items, hitems, hread⟩, hfs⟩ := List.forall_mem_cons.mp h
    obtain ⟨pieces, hpieces, hreads⟩ := ih hfs
    exact ⟨items :: pieces, .cons hitems hpieces, .cons hread hreads⟩

theorem legible_function (function : GradeFunction) {rest : List SqlxFragment}
    (h : ∀ f' ∈ f :: rest, Legible b f') : Legible b (.function function (f :: rest)) := by
  obtain ⟨⟨first, hfirst, hread⟩, hrest⟩ := List.forall_mem_cons.mp h
  obtain ⟨pieces, hpieces, hreads⟩ := forall₂_legible hrest
  have hcomma : Joins b ", " [.symbol ','] := ⟨⟨by decide, by cases b <;> rfl⟩, rfl⟩
  have hname : Yields b (SqlPart.trusted (b.functionName function))
      (itemsOf [.word (b.functionName function)]) := by
    refine Yields.text ?_ ?_ ?_
    · cases b <;> cases function <;> decide
    · cases b <;> cases function <;> rfl
    · cases b <;> cases function <;> decide
  have hargs := (Yields.joined hcomma (by decide) hpieces hfirst).wrapped
  have happly : Yields b ((SqlxFragment.function function (f :: rest)).parts b)
      (itemsOf [.word (b.functionName function)] ++ [.parens (f.tree b :: treeEach b rest)]) := by
    have hread' : readArgs (first ++ pieces.flatMap (itemsOf [.symbol ','] ++ ·)) =
        f.tree b :: treeEach b rest := readArgs_separated hread hreads
    rw [parts_function, ← hread']
    refine hname.append hargs ?_
    rw [SqlPart.wrapped, List.append_assoc]
    exact startsApart_trusted (by decide) rfl _
  exact ⟨_, happly, rfl⟩

/-- A block of arms and an `ELSE`, each part of which is an expression. -/
theorem readExpr_block {arms : List (List (Item SqlxValue) × List (Item SqlxValue))}
    {es : List (Expr SqlxValue × Expr SqlxValue)} {otherwise : List (Item SqlxValue)}
    {e : Expr SqlxValue} (hne : arms ≠ []) (harms : List.Forall₂ ReadsArm arms es)
    (hotherwise : readExpr otherwise = some e) :
    readExpr [bracketed .caseEnd ((arms.map armItems).flatMap (ofKeyword .whenBranch :: ·) ++
      ofKeyword .elseBranch :: otherwise)] = some (.caseWhen es (some e)) := by
  rw [bracketed, readCase_arms hne harms hotherwise]
  rfl

theorem joins_then (b : Backend) : Joins b " THEN " [.keyword .thenBranch] :=
  ⟨⟨by decide, by cases b <;> rfl⟩, rfl⟩

theorem joins_else (b : Backend) : Joins b " ELSE " [.keyword .elseBranch] :=
  ⟨⟨by decide, by cases b <;> rfl⟩, rfl⟩

theorem legible_caseWhen {condition thenExpr elseExpr : SqlxFragment}
    (hcondition : condition.Legible b) (hthen : thenExpr.Legible b) (helse : elseExpr.Legible b) :
    Legible b (.caseWhen condition thenExpr elseExpr) := by
  obtain ⟨x, hx, hreadx⟩ := hcondition
  obtain ⟨y, hy, hready⟩ := hthen
  obtain ⟨z, hz, hreadz⟩ := helse
  have hbody := (hx.join (joins_then b) (by decide) hy).join (joins_else b) (by decide) hz
  have harms : List.Forall₂ ReadsArm [(x, y)] [(condition.tree b, thenExpr.tree b)] :=
    .cons ⟨hreadx, hready⟩ .nil
  refine ⟨_, ?_, readExpr_block (List.cons_ne_nil _ _) harms hreadz⟩
  have hblock := hbody.caseBlock
  simp only [List.append_assoc] at hblock
  simpa [parts, SqlPart.caseWhen, armItems, itemsOf, ofKeyword] using hblock

theorem legible_nullSafeGradePair (function : GradeFunction) (hf : f.Legible b)
    (hg : g.Legible b) : Legible b (.nullSafeGradePair function f g) := by
  obtain ⟨z, hz, hreadz⟩ := legible_function function
    (List.forall_mem_cons.mpr ⟨hf, List.forall_mem_singleton.mpr hg⟩)
  have hleft := hf.wrapped
  have hright := hg.wrapped
  obtain ⟨x, hx, hreadx⟩ := hf
  obtain ⟨y, hy, hready⟩ := hg
  have hnull : Joins b " IS NULL THEN " [.keyword .is, .word "NULL", .keyword .thenBranch] :=
    ⟨⟨by decide, by cases b <;> rfl⟩, rfl⟩
  have hwhen : Joins b " WHEN " [.keyword .whenBranch] := ⟨⟨by decide, by cases b <;> rfl⟩, rfl⟩
  have hfirst := hleft.join hnull (by decide) hy
  have hsecond := (hfirst.join hwhen (by decide) hright).join hnull (by decide) hx
  have hbody := hsecond.join (joins_else b) (by decide) hz
  have harms : List.Forall₂ ReadsArm
      [(.parens [f.tree b] :: itemsOf [.keyword .is, .word "NULL"], y),
        (.parens [g.tree b] :: itemsOf [.keyword .is, .word "NULL"], x)]
      [(.is (f.tree b) false "NULL", g.tree b), (.is (g.tree b) false "NULL", f.tree b)] :=
    .cons ⟨rfl, hready⟩ (.cons ⟨rfl, hreadx⟩ .nil)
  refine ⟨_, ?_, readExpr_block (List.cons_ne_nil _ _) harms hreadz⟩
  have hblock := hbody.caseBlock
  simp only [List.append_assoc] at hblock
  simpa [parts, partsEach, SqlPart.nullSafeGradePair, armItems, itemsOf, ofKeyword] using hblock

end SqlxFragment

/-! ## Lowered fragments -/

open SqlxFragment

theorem isWordChar_of_plain {c : Char} (h : isAsciiAlphanumeric c = true ∨ c = '_') :
    isWordChar c = true := by
  rcases h with h | rfl
  · rw [isWordChar, Bool.or_eq_true, Bool.or_eq_true, Bool.or_eq_true]
    exact .inl (.inl (.inl h))
  · rfl

theorem isWordChar_of_mem_qualified (column : TenantColumn) :
    ∀ c ∈ column.qualified.toList, isWordChar c = true := by
  intro c hc
  simp only [TenantColumn.qualified, String.toList_append, List.mem_append] at hc
  rcases hc with (hc | hc) | hc
  · exact isWordChar_of_plain ((plain_of_tenantIdentifierError column.tableValid).plain c hc)
  · cases List.mem_singleton.mp hc
    rfl
  · exact isWordChar_of_plain ((plain_of_tenantIdentifierError column.columnValid).plain c hc)

namespace SqlxLowerer

variable {O : Type} {L : SqlxLowerer O} {cx : Context}

/-- The application's predicates are complete SQL with balanced brackets. -/
def PredicatesWhole (L : SqlxLowerer O) (cx : Context) : Prop :=
  ∀ fact predicate, L.predicates fact cx = some predicate →
    Whole L.backend (predicate.parts L.backend)

/-- The application's projection gives expressions. -/
def ProjectionLegible (L : SqlxLowerer O) : Prop :=
  ∀ outcome grade, L.projection outcome = .ok grade → Legible L.backend grade

theorem projectionLegible_ordinal [SqlOutcome O] (h : L.projection = ordinalProjection) :
    L.ProjectionLegible := by
  intro outcome grade hgrade
  rw [h] at hgrade
  cases hgrade
  exact legible_bind _

theorem builds_legible (hpred : L.PredicatesWhole cx) (hproj : L.ProjectionLegible) :
    L.Builds cx (Legible L.backend) (Legible L.backend) where
  true := legible_trusted .true
  false := legible_trusted .false
  isTrue fact predicate hp := legible_isTrue (hpred fact predicate hp)
  tenant := legible_tenantEquals cx.tenant.value L.tenantColumn.dot_mem_qualified
    (isWordChar_of_mem_qualified L.tenantColumn)
  not _ hf := legible_not hf
  binary connective _ _ hfs := legible_binary connective hfs
  null := legible_trusted .null
  projected := hproj
  caseWhen _ _ _ hcondition hf hg := legible_caseWhen hcondition hf hg
  function function _ _ hfs := legible_function function hfs
  pair function _ _ hf hg := legible_nullSafeGradePair function hf hg

end SqlxLowerer

/-! ## Reading generated SQL -/

/-- With the bound values the text is read as the expression it was built as, and its placeholders
are written one after the other, one for each bound value. -/
structure SqlxFragment.ReadsBack (b : Backend) (f : SqlxFragment) : Prop where
  reads : readSql b.dialect (f.toSql b) (f.binds b) = some (f.tree b)
  placeholders : ∃ tokens, lex b.dialect (f.toSql b).toList = some tokens ∧
    SqlSyntax.values tokens = (List.range' 1 (f.binds b).length).map b.dialect.mark

theorem SqlxFragment.Legible.readsBack {f : SqlxFragment} (h : f.Legible b) : f.ReadsBack b := by
  obtain ⟨items, ⟨ts, hcomplete, hnests⟩, hread⟩ := h
  have hlex : lex b.dialect (f.toSql b).toList = some (label b.dialect 0 ts) := hcomplete.lexed 0
  have hfill : fill (f.binds b) 0 (label b.dialect 0 ts) = some ts := hcomplete.fill
  refine ⟨?_, _, hlex, ?_⟩
  · rw [readSql, hlex, Option.bind_eq_bind, Option.bind_some, hfill, Option.bind_eq_bind,
      Option.bind_some, nests_iff.mp hnests]
    exact hread
  · rw [values_label, hcomplete.values]
    rfl

namespace SqlxLowerer

/-- The SQL of every filter and grade is read, with the usual precedence, as the expression that the
lowering built, whatever operators the predicates have on the outside. -/
theorem lowered_sql_reads {O : Type} (L : SqlxLowerer O) (cx : Context)
    (hpred : L.PredicatesWhole cx) (hproj : L.ProjectionLegible) (r : ResidualPolicy O)
    (lowered : Lowered) (h : L.lower cx r = .ok lowered) :
    lowered.filter.ReadsBack L.backend ∧ lowered.grade.ReadsBack L.backend := by
  obtain ⟨hfilter, hgrade⟩ := (builds_legible hpred hproj).lower h
  exact ⟨hfilter.readsBack, hgrade.readsBack⟩

end SqlxLowerer

namespace Sample

/-- Owners, and everyone on public rows; the predicate is a bare `OR`. -/
def ownerOrPublic (user : String) : List SqlPart :=
  [.text "owner_id = ", .bind (.text user), .text " OR public"]

def published : SqlxLowerer Unit where
  backend := .postgres
  predicates _ cx := some (.raw (ownerOrPublic cx.principal.id.value))
  projection := ordinalProjection
  tenantColumn := (documents Unit .postgres).tenantColumn

theorem whole_ownerOrPublic (user : String) : Whole .postgres (ownerOrPublic user) := by
  have howner : Opens .postgres "owner_id = " [.word "owner_id", .symbol '='] :=
    ⟨by decide, rfl⟩
  have hpublic : Yields .postgres (SqlPart.trusted " OR public")
      (itemsOf [.keyword .or, .word "public"]) := Yields.text (by decide) rfl (by decide)
  have hapart := startsApart_trusted (b := .postgres) (by decide : " OR public" ≠ "") rfl []
  exact ⟨_, Yields.after howner (by decide) ((Yields.bind (.text user)).append hpublic hapart)⟩

/-- Both grants read the one predicate. -/
def ownersNotMembers : ResidualPolicy Unit :=
  .all [.grant ⟨(), .has owner, none, .forbidden, [], none⟩,
    .grant ⟨(), .not (.has member), none, .forbidden, [], none⟩]

end Sample

open Sample in
theorem lowered_sql_reads_published :
    ∃ lowered, published.lower request ownersNotMembers = .ok lowered ∧
      lowered.filter.ReadsBack .postgres ∧ lowered.grade.ReadsBack .postgres := by
  refine ⟨_, rfl, published.lowered_sql_reads request ?_
    (SqlxLowerer.projectionLegible_ordinal rfl) ownersNotMembers _ rfl⟩
  intro fact predicate h
  cases h
  exact whole_ownerOrPublic _

end Gatekeep
