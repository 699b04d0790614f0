import JsSyntax.Proofs.Grammar.Derives
import JsSyntax.Proofs.Map

/-! # Derivations under another reading

A derivation is carried to another reading token by token: if `f` keeps the kinds and texts of
tokens and `g` takes the annotations that cover a stretch to annotations that cover its image,
then a derivation of `u` and `a` gives one of the images of `u` and `a` (`Derives.translate`).
Leaving out all layout is the case at hand (`Translation.erase`).
-/

set_option autoImplicit false

namespace JsSyntax

namespace Grammar

variable {τ τ' σ σ' : Type}

/-! ## Trees of a nonterminal under a change of annotation -/

def Nonterminal.map (g : σ → σ') : (n : Nonterminal) → n.Node σ → n.Node σ'
  | .statement => Statement.map g
  | .statements => List.map (Statement.map g)
  | .block => Block.map g
  | .declarators => List.map (VariableDeclarator.map g)
  | .declarator => VariableDeclarator.map g
  | .forInit => Option.map (ForInit.map g)
  | .clause | .heritage => Option.map (Expr.map g)
  | .function | .method .. => Func.map g
  | .classDeclaration => Class.map g
  | .classBody => ClassBody.map g
  | .members => List.map (MethodDefinition.map g)
  | .member => MethodDefinition.map g
  | .assignment | .conditional | .or | .and | .equality | .comparison | .additive
  | .multiplicative | .unary | .update | .chain | .callee | .primary => Expr.map g
  | .access => MemberProperty.map g
  | .arguments | .optionalArguments | .expressions => List.map (Expr.map g)
  | .slots => List.map (Option.map (Expr.map g))
  | .properties => List.map (Property.map g)
  | .property => Property.map g
  | .key => PropertyKey.map g

/-! ## Translation -/

/-- How the tokens and annotations of one reading become those of another. -/
structure Translation (R : Reading τ σ) (R' : Reading τ' σ') where
  token : τ → τ'
  annotate : σ → σ'
  kind : ∀ t, R'.kind (token t) = R.kind t
  text : ∀ t, R'.text (token t) = R.text t
  covers : ∀ {u s}, R.Covers u s → R'.Covers (u.map token) (annotate s)

/-- Leaving out all layout. -/
def Translation.erase : Translation Reading.spanned Reading.bare where
  token := fun t => (t.kind, t.value)
  annotate := fun _ => ()
  kind := fun _ => rfl
  text := fun _ => rfl
  covers := fun _ => trivial

namespace Translation

variable {R : Reading τ σ} {R' : Reading τ' σ'} (T : Translation R R')

theorem mark {t : τ} {v : String} (h : R.IsMark t v) : R'.IsMark (T.token t) v := by
  simpa [Reading.IsMark, T.kind, T.text] using h

theorem operator {t : τ} {v : String} (h : R.IsOperator t v) : R'.IsOperator (T.token t) v := by
  simpa [Reading.IsOperator, T.kind, T.text] using h

theorem keyword {t : τ} {v : String} (h : R.IsKeyword t v) : R'.IsKeyword (T.token t) v := by
  simpa [Reading.IsKeyword, T.kind, T.text] using h

theorem word {t : τ} {v : String} (h : R.IsWord t v) : R'.IsWord (T.token t) v := by
  simpa [Reading.IsWord, T.kind, T.text] using h

theorem identifier {t : τ} (h : R.IsIdentifier t) : R'.IsIdentifier (T.token t) := by
  simpa [Reading.IsIdentifier, T.kind] using h

theorem name {t : τ} (h : R.IsName t) : R'.IsName (T.token t) := by
  simpa [Reading.IsName, T.kind] using h

theorem reference {t : τ} (h : R.IsReference t) : R'.IsReference (T.token t) := by
  simpa [Reading.IsReference, Reading.IsIdentifier, T.kind, T.text] using h

theorem covers_of {u : List τ} {v : List τ'} {s : σ} (h : R.Covers u s) (hv : u.map T.token = v) :
    R'.Covers v (T.annotate s) :=
  hv ▸ T.covers h

theorem ident (t : τ) (s : σ) : R'.ident (T.token t) (T.annotate s) = (R.ident t s).map T.annotate := by
  simp [Reading.ident, Ident.map, T.text]

theorem flag {P : τ → Prop} {P' : τ' → Prop} {b : Bool} {u : List τ}
    (hP : ∀ t, P t → P' (T.token t)) (h : Flag P b u) : Flag P' b (u.map T.token) := by
  cases h with
  | on ht => exact .on (hP _ ht)
  | off => exact .off

theorem names {u : List τ} {ids : List (Ident σ)} (h : Names R u ids) :
    Names R' (u.map T.token) (ids.map (Ident.map T.annotate)) := by
  induction h with
  | one ht hs => simpa [T.ident] using Names.one (T.identifier ht) (T.covers hs)
  | more ht hs hc _ ih =>
    simpa [T.ident] using Names.more (T.identifier ht) (T.covers hs) (T.mark hc) ih

theorem parameters {u : List τ} {ids : List (Ident σ)} (h : Parameters R u ids) :
    Parameters R' (u.map T.token) (ids.map (Ident.map T.annotate)) := by
  cases h with
  | none h1 h2 => exact .none (T.mark h1) (T.mark h2)
  | some h1 h2 h3 => simpa using Parameters.some (T.mark h1) (T.names h2) (T.mark h3)

theorem functionName {u : List τ} {id : Option (Ident σ)} (h : FunctionName R u id) :
    FunctionName R' (u.map T.token) (id.map (Ident.map T.annotate)) := by
  cases h with
  | none => exact .none
  | some ht hs => simpa [T.ident] using FunctionName.some (T.identifier ht) (T.covers hs)

end Translation

/-! ## Derivations -/

section
variable {R : Reading τ σ} {R' : Reading τ' σ'} (T : Translation R R')

attribute [local simp] Nonterminal.map Statement.map Block.map VariableDeclaration.map
  VariableDeclarator.map ForInit.map Func.map Class.map ClassBody.map MethodDefinition.map Expr.map
  MemberProperty.map Property.map PropertyKey.map Literal.map TemplateElement.map Ident.map
  Pattern.toExpr_map Translation.ident Translation.text

/-- A derivation carries over to every reading that its own translates to. -/
theorem Derives.translate {n : Nonterminal} {u : List τ} {a : n.Node σ} (h : Derives R n u a) :
    Derives R' n (u.map T.token) (n.map T.annotate a) := by
  induction h with
  | varsStatement h1 _ h2 h3 ih =>
    simpa using Derives.varsStatement (T.keyword h1) ih (T.mark h2) (T.covers_of h3 (by simp))
  | functionStatement _ ih =>
    simpa using Derives.functionStatement ih
  | classStatement _ ih =>
    simpa using Derives.classStatement ih
  | expressionStatement _ h1 h2 ih =>
    simpa using Derives.expressionStatement ih (T.mark h1) (T.covers_of h2 (by simp))
  | blockStatement _ ih =>
    simpa using Derives.blockStatement ih
  | ifStatement h1 h2 _ h3 _ h4 ih1 ih2 =>
    simpa using
      Derives.ifStatement (T.keyword h1) (T.mark h2) ih1 (T.mark h3) ih2 (T.covers_of h4 (by simp))
  | ifElseStatement h1 h2 _ h3 _ h4 _ h5 ih1 ih2 ih3 =>
    simpa using
      Derives.ifElseStatement (T.keyword h1) (T.mark h2) ih1 (T.mark h3) ih2 (T.keyword h4) ih3
        (T.covers_of h5 (by simp))
  | forStatement h1 h2 _ h3 _ h4 _ h5 _ h6 ih1 ih2 ih3 ih4 =>
    simpa using
      Derives.forStatement (T.keyword h1) (T.mark h2) ih1 (T.mark h3) ih2 (T.mark h4) ih3
        (T.mark h5) ih4 (T.covers_of h6 (by simp))
  | whileStatement h1 h2 _ h3 _ h4 ih1 ih2 =>
    simpa using
      Derives.whileStatement (T.keyword h1) (T.mark h2) ih1 (T.mark h3) ih2
        (T.covers_of h4 (by simp))
  | returnStatement h1 _ h2 h3 ih =>
    simpa using Derives.returnStatement (T.keyword h1) ih (T.mark h2) (T.covers_of h3 (by simp))
  | emptyStatement h1 h2 =>
    simpa using Derives.emptyStatement (T.mark h1) (T.covers h2)
  | noStatements =>
    simpa using Derives.noStatements
  | moreStatements _ _ ih1 ih2 =>
    simpa using Derives.moreStatements ih1 ih2
  | block h1 _ h2 h3 ih =>
    simpa using Derives.block (T.mark h1) ih (T.mark h2) (T.covers_of h3 (by simp))
  | oneDeclarator _ ih =>
    simpa using Derives.oneDeclarator ih
  | moreDeclarators _ h1 _ ih1 ih2 =>
    simpa using Derives.moreDeclarators ih1 (T.mark h1) ih2
  | bareDeclarator h1 h2 h3 =>
    simpa using Derives.bareDeclarator (T.identifier h1) (T.covers h2) (T.covers h3)
  | initDeclarator h1 h2 h3 _ h4 ih =>
    simpa using
      Derives.initDeclarator (T.identifier h1) (T.covers h2) (T.operator h3) ih
        (T.covers_of h4 (by simp))
  | noInit =>
    simpa using Derives.noInit
  | varsInit h1 _ h2 ih =>
    simpa using Derives.varsInit (T.keyword h1) ih (T.covers_of h2 (by simp))
  | exprInit _ ih =>
    simpa using Derives.exprInit ih
  | noClause =>
    simpa using Derives.noClause
  | clause _ ih =>
    simpa using Derives.clause ih
  | function h1 h2 h3 h4 h5 _ h6 ih =>
    simpa using
      Derives.function (T.flag (fun _ => T.keyword) h1) (T.keyword h2)
        (T.flag (fun _ => T.operator) h3) (T.functionName h4) (T.parameters h5) ih
        (T.covers_of h6 (by simp))
  | method h1 _ h2 ih =>
    simpa using Derives.method (T.parameters h1) ih (T.covers_of h2 (by simp))
  | classDeclaration h1 h2 h3 _ _ h4 ih1 ih2 =>
    simpa using
      Derives.classDeclaration (T.keyword h1) (T.identifier h2) (T.covers h3) ih1 ih2
        (T.covers_of h4 (by simp))
  | noHeritage =>
    simpa using Derives.noHeritage
  | heritage h1 _ ih =>
    simpa using Derives.heritage (T.word h1) ih
  | classBody h1 _ h2 h3 ih =>
    simpa using Derives.classBody (T.mark h1) ih (T.mark h2) (T.covers_of h3 (by simp))
  | noMembers =>
    simpa using Derives.noMembers
  | skippedMark h1 _ ih =>
    simpa using Derives.skippedMark (T.mark h1) ih
  | moreMembers _ _ ih1 ih2 =>
    simpa using Derives.moreMembers ih1 ih2
  | methodMember h1 h2 h3 _ _ h4 ih1 ih2 =>
    simpa using
      Derives.methodMember (T.flag (fun _ => T.word) h1) (T.flag (fun _ => T.word) h2)
        (T.flag (fun _ => T.operator) h3) ih1 ih2 (T.covers_of h4 (by simp))
  | accessorMember h1 h2 _ _ h3 ih1 ih2 =>
    simpa using
      Derives.accessorMember (T.flag (fun _ => T.word) h1) (T.word h2) ih1 ih2
        (T.covers_of h3 (by simp))
  | assignmentOfConditional _ ih =>
    simpa using Derives.assignmentOfConditional ih
  | @assignment u v t op left right s _ h1 _ h2 ih1 ih2 =>
    have hl : Derives R' .conditional (u.map T.token) (left.map T.annotate).toExpr := by
      rw [Pattern.toExpr_map]
      exact ih1
    simpa using Derives.assignment hl (T.operator h1) ih2 (T.covers_of h2 (by simp))
  | conditionalOfOr _ ih =>
    simpa using Derives.conditionalOfOr ih
  | conditional _ h1 _ h2 _ h3 ih1 ih2 ih3 =>
    simpa using
      Derives.conditional ih1 (T.operator h1) ih2 (T.mark h2) ih3 (T.covers_of h3 (by simp))
  | orOfAnd _ ih =>
    simpa using Derives.orOfAnd ih
  | or _ h1 _ h2 ih1 ih2 =>
    simpa using Derives.or ih1 (T.operator h1) ih2 (T.covers_of h2 (by simp))
  | andOfEquality _ ih =>
    simpa using Derives.andOfEquality ih
  | and _ h1 _ h2 ih1 ih2 =>
    simpa using Derives.and ih1 (T.operator h1) ih2 (T.covers_of h2 (by simp))
  | equalityOfComparison _ ih =>
    simpa using Derives.equalityOfComparison ih
  | equality _ h1 h2 _ h3 ih1 ih2 =>
    simpa using Derives.equality ih1 h1 (T.operator h2) ih2 (T.covers_of h3 (by simp))
  | comparisonOfAdditive _ ih =>
    simpa using Derives.comparisonOfAdditive ih
  | comparison _ h1 h2 _ h3 ih1 ih2 =>
    simpa using Derives.comparison ih1 h1 (T.operator h2) ih2 (T.covers_of h3 (by simp))
  | additiveOfMultiplicative _ ih =>
    simpa using Derives.additiveOfMultiplicative ih
  | additive _ h1 h2 _ h3 ih1 ih2 =>
    simpa using Derives.additive ih1 h1 (T.operator h2) ih2 (T.covers_of h3 (by simp))
  | multiplicativeOfUnary _ ih =>
    simpa using Derives.multiplicativeOfUnary ih
  | multiplicative _ h1 h2 _ h3 ih1 ih2 =>
    simpa using Derives.multiplicative ih1 h1 (T.operator h2) ih2 (T.covers_of h3 (by simp))
  | unaryOfUpdate _ ih =>
    simpa using Derives.unaryOfUpdate ih
  | await h1 _ h2 ih =>
    simpa using Derives.await (T.keyword h1) ih (T.covers_of h2 (by simp))
  | unaryMark h1 h2 _ h3 ih =>
    simpa using Derives.unaryMark h1 (T.operator h2) ih (T.covers_of h3 (by simp))
  | unaryWord h1 h2 _ h3 ih =>
    simpa using Derives.unaryWord h1 (T.keyword h2) ih (T.covers_of h3 (by simp))
  | updateOfChain _ ih =>
    simpa using Derives.updateOfChain ih
  | updateBefore h1 _ h2 h3 ih =>
    simpa using
      Derives.updateBefore (T.operator h1) ih (by simpa using h2) (T.covers_of h3 (by simp))
  | updateAfter _ h1 h2 h3 ih =>
    simpa using
      Derives.updateAfter ih (by simpa using h1) (T.operator h2) (T.covers_of h3 (by simp))
  | chainOfPrimary _ ih =>
    simpa using Derives.chainOfPrimary ih
  | call _ _ h1 ih1 ih2 =>
    simpa using Derives.call ih1 ih2 (T.covers_of h1 (by simp))
  | chainAccess _ _ h1 ih1 ih2 =>
    simpa using Derives.chainAccess ih1 ih2 (T.covers_of h1 (by simp))
  | chainNew _ h1 _ h2 ih1 ih2 =>
    simpa using Derives.chainNew ih1 (T.keyword h1) ih2 (T.covers_of h2 (by simp))
  | calleeOfPrimary _ ih =>
    simpa using Derives.calleeOfPrimary ih
  | calleeAccess _ _ h1 ih1 ih2 =>
    simpa using Derives.calleeAccess ih1 ih2 (T.covers_of h1 (by simp))
  | computedAccess h1 _ h2 ih =>
    simpa using Derives.computedAccess (T.mark h1) ih (T.mark h2)
  | namedAccess h1 h2 h3 =>
    simpa using Derives.namedAccess (T.mark h1) (T.name h2) (T.covers h3)
  | noArguments h1 h2 =>
    simpa using Derives.noArguments (T.mark h1) (T.mark h2)
  | arguments h1 _ h2 ih =>
    simpa using Derives.arguments (T.mark h1) ih (T.mark h2)
  | omittedArguments =>
    simpa using Derives.omittedArguments
  | givenArguments _ ih =>
    simpa using Derives.givenArguments ih
  | oneExpression _ ih =>
    simpa using Derives.oneExpression ih
  | moreExpressions _ h1 _ ih1 ih2 =>
    simpa using Derives.moreExpressions ih1 (T.mark h1) ih2
  | reference h1 h2 =>
    simpa using Derives.reference (T.reference h1) (T.covers h2)
  | this h1 h2 =>
    simpa using Derives.this (T.keyword h1) (T.covers h2)
  | super h1 h2 =>
    simpa using Derives.super (T.keyword h1) (T.covers h2)
  | number h1 h2 h3 =>
    simpa using Derives.number (by simp [T.kind, h1]) (by simp [T.text, h2]) (T.covers h3)
  | string h1 h2 =>
    simpa using Derives.string (by simp [T.kind, h1]) (T.covers h2)
  | boolean h1 h2 =>
    simpa using Derives.boolean (by simp [T.kind, h1]) (T.covers h2)
  | null h1 h2 =>
    simpa using Derives.null (by simp [T.kind, h1]) (T.covers h2)
  | template h1 h2 =>
    simpa using Derives.template (by simp [T.kind, h1]) (T.covers h2)
  | functionExpression _ ih =>
    simpa using Derives.functionExpression ih
  | group h1 _ h2 ih =>
    simpa using Derives.group (T.mark h1) ih (T.mark h2)
  | new h1 _ _ h2 ih1 ih2 =>
    simpa using Derives.new (T.keyword h1) ih1 ih2 (T.covers_of h2 (by simp))
  | array h1 _ h2 h3 ih =>
    simpa using Derives.array (T.mark h1) ih (T.mark h2) (T.covers_of h3 (by simp))
  | noSlots =>
    simpa using Derives.noSlots
  | hole h1 _ ih =>
    simpa using Derives.hole (T.mark h1) ih
  | lastSlot _ ih =>
    simpa using Derives.lastSlot ih
  | moreSlots _ h1 _ ih1 ih2 =>
    simpa using Derives.moreSlots ih1 (T.mark h1) ih2
  | object h1 _ h2 h3 ih =>
    simpa using Derives.object (T.mark h1) ih (T.mark h2) (T.covers_of h3 (by simp))
  | noProperties =>
    simpa using Derives.noProperties
  | lastProperty _ ih =>
    simpa using Derives.lastProperty ih
  | moreProperties _ h1 _ ih1 ih2 =>
    simpa using Derives.moreProperties ih1 (T.mark h1) ih2
  | valueProperty _ h1 _ h2 ih1 ih2 =>
    simpa using Derives.valueProperty ih1 (T.mark h1) ih2 (T.covers_of h2 (by simp))
  | shorthandProperty h1 h2 h3 =>
    simpa using Derives.shorthandProperty (T.reference h1) (T.covers h2) (T.covers h3)
  | methodProperty h1 h2 _ _ h3 ih1 ih2 =>
    simpa using
      Derives.methodProperty (T.flag (fun _ => T.word) h1) (T.flag (fun _ => T.operator) h2) ih1
        ih2 (T.covers_of h3 (by simp))
  | accessorProperty h1 _ _ h2 ih1 ih2 =>
    simpa using Derives.accessorProperty (T.word h1) ih1 ih2 (T.covers_of h2 (by simp))
  | computedKey h1 _ h2 ih =>
    simpa using Derives.computedKey (T.mark h1) ih (T.mark h2)
  | nameKey h1 h2 =>
    simpa using Derives.nameKey (T.name h1) (T.covers h2)
  | stringKey h1 h2 =>
    simpa using Derives.stringKey (by simp [T.kind, h1]) (T.covers h2)
  | numberKey h1 h2 h3 =>
    simpa using Derives.numberKey (by simp [T.kind, h1]) (by simp [T.text, h2]) (T.covers h3)

end

end Grammar

end JsSyntax
