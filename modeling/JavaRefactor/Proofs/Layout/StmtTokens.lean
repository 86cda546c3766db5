import JavaRefactor.Layout.Stmt
import JavaRefactor.Proofs.Layout.Expr
import JavaRefactor.Proofs.Token.Spelling

/-!
# The tokens of statements

The tokens of a statement whose expressions and types are identifiers (`Stmt.IsPlain`): its
keywords and separators and the names in it (`Stmt.toks`).  White space does not count among them,
so they say nothing of lines and their indentation.
-/

namespace JavaRefactor

/-! ### Tokens -/

/-- A keyword, a separator or an operator that statements are written with. -/
inductive Mark where
  | ifWord
  | elseWord
  | whileWord
  | doWord
  | forWord
  | returnWord
  | throwWord
  | synchronizedWord
  | finalWord
  | openParen
  | closeParen
  | openBrace
  | closeBrace
  | semicolon
  | comma
  | equals
  | colon
  deriving DecidableEq

namespace Mark

/-- All marks. -/
def all : List Mark :=
  [ifWord, elseWord, whileWord, doWord, forWord, returnWord, throwWord, synchronizedWord,
    finalWord, openParen, closeParen, openBrace, closeBrace, semicolon, comma, equals, colon]

/-- The token in source text. -/
def text : Mark → String
  | ifWord => "if"
  | elseWord => "else"
  | whileWord => "while"
  | doWord => "do"
  | forWord => "for"
  | returnWord => "return"
  | throwWord => "throw"
  | synchronizedWord => "synchronized"
  | finalWord => "final"
  | openParen => "("
  | closeParen => ")"
  | openBrace => "\x7b"
  | closeBrace => "\x7d"
  | semicolon => ";"
  | comma => ","
  | equals => "="
  | colon => ":"

/-- The mark that a token is. -/
def ofText? (token : String) : Option Mark := all.find? fun m => m.text == token

/-- A mark is written as the token that it was found for. -/
theorem text_of_ofText? {token : String} {m : Mark} (h : ofText? token = some m) :
    m.text = token := by
  have found := List.find?_some h
  exact eq_of_beq found

end Mark

/-- A token of a statement: a mark or a name. -/
inductive Tok where
  | name (s : String)
  | mark (m : Mark)
  deriving DecidableEq

namespace Tok

/-- The token in source text. -/
def text : Tok → String
  | name s => s
  | mark m => m.text

/-- What a token of a source text is. -/
def ofText (token : String) : Tok :=
  match Mark.ofText? token with
  | some m => mark m
  | none => name token

/-- A token is written as the text that it was read from. -/
theorem text_ofText (token : String) : (ofText token).text = token := by
  rw [ofText]
  cases h : Mark.ofText? token with
  | none => rfl
  | some m => exact Mark.text_of_ofText? h

/-- Different texts are different tokens. -/
theorem ofText_injective : Function.Injective ofText :=
  Function.LeftInverse.injective text_ofText

/-- Groups of tokens with a comma between each two. -/
def separated : List (List Tok) → List Tok
  | [] => []
  | [group] => group
  | group :: groups => group ++ mark .comma :: separated groups

end Tok

/-- A name that is no keyword. -/
structure IsIdentifier (s : String) : Prop extends IsWord s where
  noMark : Mark.ofText? s = none

instance (s : String) : Decidable (IsIdentifier s) :=
  decidable_of_iff (_ ∧ _) ⟨fun h => ⟨h.1, h.2⟩, fun h => ⟨h.toIsWord, h.noMark⟩⟩

/-! ### Plain statements -/

/-- An expression that is an identifier and has no source text. -/
inductive Expr.IsPlain : Expr → Prop where
  | ident {i : NodeInfo} {name : String} (hi : i.span.isEmpty = true) (hname : IsIdentifier name)
      (s : Option SymbolId) : IsPlain (.ident i name s)

/-- A declaration whose type and initial value are identifiers. -/
structure VarDecl.IsPlain (d : VarDecl) : Prop where
  name : IsIdentifier d.name
  type : d.type.IsPlain
  init : ∀ e ∈ d.init, e.IsPlain

/-- A statement without source text and comments. -/
structure StmtInfo.IsPlain (i : StmtInfo) : Prop where
  span : i.span.isEmpty = true
  comments : i.comments = []

namespace Stmt

/-- A plain statement that can stand in the header of a loop. -/
inductive IsSimple : Stmt → Prop where
  | expr {i : StmtInfo} {e : Expr} (hi : i.IsPlain) (he : e.IsPlain) : IsSimple (.expr i e)
  | declare {i : StmtInfo} {d : VarDecl} (hi : i.IsPlain) (hd : d.IsPlain) :
      IsSimple (.declare i d)

/-- Statements without source text and comments in which all expressions and types are
identifiers. -/
inductive IsPlain : Stmt → Prop where
  | simple {s : Stmt} (h : s.IsSimple) : IsPlain s
  | block {i : StmtInfo} {ss : List Stmt} (hi : i.IsPlain) (hss : ∀ s ∈ ss, IsPlain s) :
      IsPlain (.block i ss)
  | ifThen {i : StmtInfo} {cond : Expr} {yes : Stmt} (hi : i.IsPlain) (hcond : cond.IsPlain)
      (hyes : IsPlain yes) : IsPlain (.ifElse i cond yes none)
  | ifElse {i : StmtInfo} {cond : Expr} {yes no : Stmt} (hi : i.IsPlain) (hcond : cond.IsPlain)
      (hyes : IsPlain yes) (hno : IsPlain no) : IsPlain (.ifElse i cond yes (some no))
  | whileLoop {i : StmtInfo} {cond : Expr} {body : Stmt} (hi : i.IsPlain) (hcond : cond.IsPlain)
      (hbody : IsPlain body) : IsPlain (.whileLoop i cond body)
  | doLoop {i : StmtInfo} {body : Stmt} {cond : Expr} (hi : i.IsPlain) (hbody : IsPlain body)
      (hcond : cond.IsPlain) : IsPlain (.doLoop i body cond)
  | forLoop {i : StmtInfo} {init : List Stmt} {cond : Option Expr} {update : List Expr}
      {body : Stmt} (hi : i.IsPlain) (hinit : ∀ s ∈ init, s.IsSimple)
      (hcond : ∀ e ∈ cond, e.IsPlain) (hupdate : ∀ e ∈ update, e.IsPlain)
      (hbody : IsPlain body) : IsPlain (.forLoop i init cond update body)
  | forEach {i : StmtInfo} {var : VarDecl} {iterable : Expr} {body : Stmt} (hi : i.IsPlain)
      (hvar : var.IsPlain) (hiterable : iterable.IsPlain) (hbody : IsPlain body) :
      IsPlain (.forEach i var iterable body)
  | ret {i : StmtInfo} {value : Option Expr} (hi : i.IsPlain) (hvalue : ∀ e ∈ value, e.IsPlain) :
      IsPlain (.ret i value)
  | raise {i : StmtInfo} {value : Expr} (hi : i.IsPlain) (hvalue : value.IsPlain) :
      IsPlain (.raise i value)
  | synchronized {i : StmtInfo} {lock : Expr} {body : Stmt} (hi : i.IsPlain)
      (hlock : lock.IsPlain) (hbody : IsPlain body) : IsPlain (.synchronized i lock body)
  | empty {i : StmtInfo} (hi : i.IsPlain) : IsPlain (.empty i)

end Stmt

/-! ### The tokens of a statement -/

/-- The token of an expression that is an identifier. -/
def Expr.tok (e : Expr) : Tok := .name e.print

/-- The token of an identifier is its name. -/
theorem Expr.tok_ident (i : NodeInfo) (name : String) (s : Option SymbolId) :
    (ident i name s).tok = .name name := by
  simp [tok, print, layout, Layout.toText, Layout.textOf]

/-- The tokens of a declaration. -/
def VarDecl.toks (d : VarDecl) : List Tok :=
  (if d.isFinal then [.mark .finalWord] else []) ++ [d.type.tok, .name d.name]
    ++ match d.init with
       | some init => [.mark .equals, init.tok]
       | none => []

namespace Stmt

/-- The tokens of a keyword with an expression in parentheses behind it. -/
def headToks (keyword : Mark) (e : Expr) : List Tok :=
  [.mark keyword, .mark .openParen, e.tok, .mark .closeParen]

/-- The tokens of a statement in the header of a loop. -/
def simpleToks : Stmt → List Tok
  | expr _ value => [value.tok]
  | declare _ decl => decl.toks
  | _ => []

mutual

/-- The tokens of a statement. -/
def toks : Stmt → List Tok
  | block _ ss => .mark .openBrace :: toksEach ss ++ [.mark .closeBrace]
  | ifElse _ cond yes none => headToks .ifWord cond ++ toks yes
  | ifElse _ cond yes (some no) =>
    headToks .ifWord cond ++ toks yes ++ [.mark .elseWord] ++ toks no
  | whileLoop _ cond body => headToks .whileWord cond ++ toks body
  | doLoop _ body cond =>
    .mark .doWord :: toks body ++ (headToks .whileWord cond ++ [.mark .semicolon])
  | forLoop _ init cond update body =>
    [.mark .forWord, .mark .openParen] ++ Tok.separated (init.map simpleToks)
      ++ [.mark .semicolon] ++ cond.toList.map Expr.tok ++ [.mark .semicolon]
      ++ Tok.separated (update.map fun e => [e.tok]) ++ [.mark .closeParen] ++ toks body
  | forEach _ var iterable body =>
    [.mark .forWord, .mark .openParen] ++ var.toks
      ++ [.mark .colon, iterable.tok, .mark .closeParen] ++ toks body
  | ret _ value => .mark .returnWord :: value.toList.map Expr.tok ++ [.mark .semicolon]
  | raise _ value => [.mark .throwWord, value.tok, .mark .semicolon]
  | synchronized _ lock body => headToks .synchronizedWord lock ++ toks body
  | expr _ value => [value.tok, .mark .semicolon]
  | empty _ => [.mark .semicolon]
  | declare _ decl => decl.toks ++ [.mark .semicolon]

/-- The tokens of statements one after the other. -/
def toksEach : List Stmt → List Tok
  | [] => []
  | s :: ss => toks s ++ toksEach ss

end

end Stmt

end JavaRefactor
