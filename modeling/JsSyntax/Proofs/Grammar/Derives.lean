import JsSyntax.Ast.Target
import JsSyntax.Parse.Member
import JsSyntax.Proofs.Grammar.Reading

/-! # The grammar

`Derives R n u a`: under the reading `R`, the tokens `u` are a phrase of the nonterminal `n`, and
`a` is its tree. There is one nonterminal for each level of precedence, one for each kind of
statement part, and one for each list. The grammar does not fix which of several derivations the
parser takes; it says what a tree may be written as.
-/

set_option autoImplicit false

namespace JsSyntax

namespace Grammar

/-! ## Nonterminals -/

inductive Nonterminal where
  | statement
  | statements
  | block
  | declarators
  | declarator
  | forInit
  | clause
  | function
  | method (async generator : Bool)
  | classDeclaration
  | heritage
  | classBody
  | members
  | member
  | assignment
  | conditional
  | or
  | and
  | equality
  | comparison
  | additive
  | multiplicative
  | unary
  | update
  | chain
  | callee
  | primary
  | access
  | arguments
  | optionalArguments
  | expressions
  | slots
  | properties
  | property
  | key
deriving DecidableEq

/-- The trees of a nonterminal. -/
@[reducible] def Nonterminal.Node (σ : Type) : Nonterminal → Type
  | .statement => Statement σ
  | .statements => List (Statement σ)
  | .block => Block σ
  | .declarators => List (VariableDeclarator σ)
  | .declarator => VariableDeclarator σ
  | .forInit => Option (ForInit σ)
  | .clause | .heritage => Option (Expr σ)
  | .function | .method .. => Func σ
  | .classDeclaration => Class σ
  | .classBody => ClassBody σ
  | .members => List (MethodDefinition σ)
  | .member => MethodDefinition σ
  | .assignment | .conditional | .or | .and | .equality | .comparison | .additive
  | .multiplicative | .unary | .update | .chain | .callee | .primary => Expr σ
  | .access => MemberProperty σ
  | .arguments | .optionalArguments | .expressions => List (Expr σ)
  | .slots => List (Option (Expr σ))
  | .properties => List (Property σ)
  | .property => Property σ
  | .key => PropertyKey σ

/-! ## Productions -/

variable {τ σ : Type}

inductive Derives (R : Reading τ σ) : (n : Nonterminal) → List τ → n.Node σ → Prop where
  /- Statements -/
  | varsStatement {t stop : τ} {kind : VariableKind} {u : List τ}
      {ds : List (VariableDeclarator σ)} {s : σ} :
      R.IsKeyword t kind.keyword → Derives R .declarators u ds → R.IsMark stop ";" →
      R.Covers ([t] ++ u ++ [stop]) s →
      Derives R .statement ([t] ++ u ++ [stop]) (.vars ⟨kind, ds, s⟩)
  | functionStatement {u : List τ} {f : Func σ} :
      Derives R .function u f → Derives R .statement u (.function f)
  | classStatement {u : List τ} {c : Class σ} :
      Derives R .classDeclaration u c → Derives R .statement u (.classDeclaration c)
  | expressionStatement {u : List τ} {e : Expr σ} {stop : τ} {s : σ} :
      Derives R .assignment u e → R.IsMark stop ";" → R.Covers (u ++ [stop]) s →
      Derives R .statement (u ++ [stop]) (.expression e s)
  | blockStatement {u : List τ} {b : Block σ} :
      Derives R .block u b → Derives R .statement u (.block b)
  | ifStatement {t start stop : τ} {u v : List τ} {test : Expr σ} {consequent : Statement σ}
      {s : σ} :
      R.IsKeyword t "if" → R.IsMark start "(" → Derives R .assignment u test →
      R.IsMark stop ")" → Derives R .statement v consequent →
      R.Covers ([t] ++ [start] ++ u ++ [stop] ++ v) s →
      Derives R .statement ([t] ++ [start] ++ u ++ [stop] ++ v) (.ifElse test consequent none s)
  | ifElseStatement {t start stop t' : τ} {u v w : List τ} {test : Expr σ}
      {consequent alternate : Statement σ} {s : σ} :
      R.IsKeyword t "if" → R.IsMark start "(" → Derives R .assignment u test →
      R.IsMark stop ")" → Derives R .statement v consequent → R.IsKeyword t' "else" →
      Derives R .statement w alternate →
      R.Covers ([t] ++ [start] ++ u ++ [stop] ++ v ++ [t'] ++ w) s →
      Derives R .statement ([t] ++ [start] ++ u ++ [stop] ++ v ++ [t'] ++ w)
        (.ifElse test consequent (some alternate) s)
  | forStatement {t start semi semi' stop : τ} {u v w x : List τ} {init : Option (ForInit σ)}
      {test update : Option (Expr σ)} {body : Statement σ} {s : σ} :
      R.IsKeyword t "for" → R.IsMark start "(" → Derives R .forInit u init →
      R.IsMark semi ";" → Derives R .clause v test → R.IsMark semi' ";" →
      Derives R .clause w update → R.IsMark stop ")" → Derives R .statement x body →
      R.Covers ([t] ++ [start] ++ u ++ [semi] ++ v ++ [semi'] ++ w ++ [stop] ++ x) s →
      Derives R .statement ([t] ++ [start] ++ u ++ [semi] ++ v ++ [semi'] ++ w ++ [stop] ++ x)
        (.forLoop init test update body s)
  | whileStatement {t start stop : τ} {u v : List τ} {test : Expr σ} {body : Statement σ}
      {s : σ} :
      R.IsKeyword t "while" → R.IsMark start "(" → Derives R .assignment u test →
      R.IsMark stop ")" → Derives R .statement v body →
      R.Covers ([t] ++ [start] ++ u ++ [stop] ++ v) s →
      Derives R .statement ([t] ++ [start] ++ u ++ [stop] ++ v) (.whileLoop test body s)
  | returnStatement {t stop : τ} {u : List τ} {argument : Option (Expr σ)} {s : σ} :
      R.IsKeyword t "return" → Derives R .clause u argument → R.IsMark stop ";" →
      R.Covers ([t] ++ u ++ [stop]) s →
      Derives R .statement ([t] ++ u ++ [stop]) (.ret argument s)
  | emptyStatement {t : τ} {s : σ} :
      R.IsMark t ";" → R.Covers [t] s → Derives R .statement [t] (.empty s)
  /- Parts of statements -/
  | noStatements : Derives R .statements [] []
  | moreStatements {u v : List τ} {st : Statement σ} {sts : List (Statement σ)} :
      Derives R .statement u st → Derives R .statements v sts →
      Derives R .statements (u ++ v) (st :: sts)
  | block {start stop : τ} {u : List τ} {sts : List (Statement σ)} {s : σ} :
      R.IsMark start "\x7b" → Derives R .statements u sts → R.IsMark stop "\x7d" →
      R.Covers ([start] ++ u ++ [stop]) s → Derives R .block ([start] ++ u ++ [stop]) ⟨sts, s⟩
  | oneDeclarator {u : List τ} {d : VariableDeclarator σ} :
      Derives R .declarator u d → Derives R .declarators u [d]
  | moreDeclarators {u v : List τ} {comma : τ} {d : VariableDeclarator σ}
      {ds : List (VariableDeclarator σ)} :
      Derives R .declarator u d → R.IsMark comma "," → Derives R .declarators v ds →
      Derives R .declarators (u ++ [comma] ++ v) (d :: ds)
  | bareDeclarator {t : τ} {s s' : σ} :
      R.IsIdentifier t → R.Covers [t] s → R.Covers [t] s' →
      Derives R .declarator [t] ⟨R.ident t s, none, s'⟩
  | initDeclarator {t t' : τ} {u : List τ} {e : Expr σ} {s s' : σ} :
      R.IsIdentifier t → R.Covers [t] s → R.IsOperator t' "=" → Derives R .assignment u e →
      R.Covers ([t] ++ [t'] ++ u) s' →
      Derives R .declarator ([t] ++ [t'] ++ u) ⟨R.ident t s, some e, s'⟩
  | noInit : Derives R .forInit [] none
  | varsInit {t : τ} {kind : VariableKind} {u : List τ} {ds : List (VariableDeclarator σ)}
      {s : σ} :
      R.IsKeyword t kind.keyword → Derives R .declarators u ds → R.Covers ([t] ++ u) s →
      Derives R .forInit ([t] ++ u) (some (.vars ⟨kind, ds, s⟩))
  | exprInit {u : List τ} {e : Expr σ} :
      Derives R .assignment u e → Derives R .forInit u (some (.expr e))
  | noClause : Derives R .clause [] none
  | clause {u : List τ} {e : Expr σ} :
      Derives R .assignment u e → Derives R .clause u (some e)
  /- Functions -/
  | function {u v w x y : List τ} {t : τ} {async generator : Bool} {id : Option (Ident σ)}
      {params : List (Ident σ)} {body : Block σ} {s : σ} :
      Flag (R.IsKeyword · "async") async u → R.IsKeyword t "function" →
      Flag (R.IsOperator · "*") generator v → FunctionName R w id → Parameters R x params →
      Derives R .block y body → R.Covers (u ++ [t] ++ v ++ w ++ x ++ y) s →
      Derives R .function (u ++ [t] ++ v ++ w ++ x ++ y) ⟨id, params, body, generator, async, s⟩
  | method {async generator : Bool} {u v : List τ} {params : List (Ident σ)} {body : Block σ}
      {s : σ} :
      Parameters R u params → Derives R .block v body → R.Covers (u ++ v) s →
      Derives R (.method async generator) (u ++ v) ⟨none, params, body, generator, async, s⟩
  /- Classes -/
  | classDeclaration {t t' : τ} {u v : List τ} {superClass : Option (Expr σ)}
      {body : ClassBody σ} {s s' : σ} :
      R.IsKeyword t "class" → R.IsIdentifier t' → R.Covers [t'] s →
      Derives R .heritage u superClass → Derives R .classBody v body →
      R.Covers ([t] ++ [t'] ++ u ++ v) s' →
      Derives R .classDeclaration ([t] ++ [t'] ++ u ++ v) ⟨R.ident t' s, superClass, body, s'⟩
  | noHeritage : Derives R .heritage [] none
  | heritage {t : τ} {u : List τ} {e : Expr σ} :
      R.IsWord t "extends" → Derives R .chain u e → Derives R .heritage ([t] ++ u) (some e)
  | classBody {start stop : τ} {u : List τ} {ms : List (MethodDefinition σ)} {s : σ} :
      R.IsMark start "\x7b" → Derives R .members u ms → R.IsMark stop "\x7d" →
      R.Covers ([start] ++ u ++ [stop]) s →
      Derives R .classBody ([start] ++ u ++ [stop]) ⟨ms, s⟩
  | noMembers : Derives R .members [] []
  | skippedMark {t : τ} {u : List τ} {ms : List (MethodDefinition σ)} :
      R.IsMark t ";" → Derives R .members u ms → Derives R .members ([t] ++ u) ms
  | moreMembers {u v : List τ} {m : MethodDefinition σ} {ms : List (MethodDefinition σ)} :
      Derives R .member u m → Derives R .members v ms → Derives R .members (u ++ v) (m :: ms)
  | methodMember {static async generator : Bool} {u v w x y : List τ} {key : PropertyKey σ}
      {value : Func σ} {s : σ} :
      Flag (R.IsWord · "static") static u → Flag (R.IsWord · "async") async v →
      Flag (R.IsOperator · "*") generator w → Derives R .key x key →
      Derives R (.method async generator) y value → R.Covers (u ++ v ++ w ++ x ++ y) s →
      Derives R .member (u ++ v ++ w ++ x ++ y)
        ⟨key, value, Parse.methodKind none static key.isComputed key, key.isComputed, static, s⟩
  | accessorMember {static getter : Bool} {t : τ} {u v w : List τ} {key : PropertyKey σ}
      {value : Func σ} {s : σ} :
      Flag (R.IsWord · "static") static u → R.IsWord t (if getter then "get" else "set") →
      Derives R .key v key → Derives R (.method false false) w value →
      R.Covers (u ++ [t] ++ v ++ w) s →
      Derives R .member (u ++ [t] ++ v ++ w)
        ⟨key, value, if getter then .get else .set, key.isComputed, static, s⟩
  /- Assignments and conditionals -/
  | assignmentOfConditional {u : List τ} {e : Expr σ} :
      Derives R .conditional u e → Derives R .assignment u e
  | assignment {u v : List τ} {t : τ} {op : AssignmentOp} {left : Pattern σ} {right : Expr σ}
      {s : σ} :
      Derives R .conditional u left.toExpr → R.IsOperator t op.symbol →
      Derives R .assignment v right → R.Covers (u ++ [t] ++ v) s →
      Derives R .assignment (u ++ [t] ++ v) (.assign op left right s)
  | conditionalOfOr {u : List τ} {e : Expr σ} :
      Derives R .or u e → Derives R .conditional u e
  | conditional {u v w : List τ} {question colon : τ} {test consequent alternate : Expr σ}
      {s : σ} :
      Derives R .or u test → R.IsOperator question "?" → Derives R .assignment v consequent →
      R.IsMark colon ":" → Derives R .assignment w alternate →
      R.Covers (u ++ [question] ++ v ++ [colon] ++ w) s →
      Derives R .conditional (u ++ [question] ++ v ++ [colon] ++ w)
        (.conditional test consequent alternate s)
  /- Operators with two operands -/
  | orOfAnd {u : List τ} {e : Expr σ} : Derives R .and u e → Derives R .or u e
  | or {u v : List τ} {t : τ} {left right : Expr σ} {s : σ} :
      Derives R .or u left → R.IsOperator t "||" → Derives R .and v right →
      R.Covers (u ++ [t] ++ v) s → Derives R .or (u ++ [t] ++ v) (.logical .or left right s)
  | andOfEquality {u : List τ} {e : Expr σ} : Derives R .equality u e → Derives R .and u e
  | and {u v : List τ} {t : τ} {left right : Expr σ} {s : σ} :
      Derives R .and u left → R.IsOperator t "&&" → Derives R .equality v right →
      R.Covers (u ++ [t] ++ v) s → Derives R .and (u ++ [t] ++ v) (.logical .and left right s)
  | equalityOfComparison {u : List τ} {e : Expr σ} :
      Derives R .comparison u e → Derives R .equality u e
  | equality {u v : List τ} {t : τ} {op : BinaryOp} {left right : Expr σ} {s : σ} :
      Derives R .equality u left → op ∈ BinaryOp.equality → R.IsOperator t op.symbol →
      Derives R .comparison v right → R.Covers (u ++ [t] ++ v) s →
      Derives R .equality (u ++ [t] ++ v) (.binary op left right s)
  | comparisonOfAdditive {u : List τ} {e : Expr σ} :
      Derives R .additive u e → Derives R .comparison u e
  | comparison {u v : List τ} {t : τ} {op : BinaryOp} {left right : Expr σ} {s : σ} :
      Derives R .comparison u left → op ∈ BinaryOp.comparison → R.IsOperator t op.symbol →
      Derives R .additive v right → R.Covers (u ++ [t] ++ v) s →
      Derives R .comparison (u ++ [t] ++ v) (.binary op left right s)
  | additiveOfMultiplicative {u : List τ} {e : Expr σ} :
      Derives R .multiplicative u e → Derives R .additive u e
  | additive {u v : List τ} {t : τ} {op : BinaryOp} {left right : Expr σ} {s : σ} :
      Derives R .additive u left → op ∈ BinaryOp.additive → R.IsOperator t op.symbol →
      Derives R .multiplicative v right → R.Covers (u ++ [t] ++ v) s →
      Derives R .additive (u ++ [t] ++ v) (.binary op left right s)
  | multiplicativeOfUnary {u : List τ} {e : Expr σ} :
      Derives R .unary u e → Derives R .multiplicative u e
  | multiplicative {u v : List τ} {t : τ} {op : BinaryOp} {left right : Expr σ} {s : σ} :
      Derives R .multiplicative u left → op ∈ BinaryOp.multiplicative →
      R.IsOperator t op.symbol → Derives R .unary v right → R.Covers (u ++ [t] ++ v) s →
      Derives R .multiplicative (u ++ [t] ++ v) (.binary op left right s)
  /- Operators with one operand -/
  | unaryOfUpdate {u : List τ} {e : Expr σ} : Derives R .update u e → Derives R .unary u e
  | await {t : τ} {u : List τ} {e : Expr σ} {s : σ} :
      R.IsKeyword t "await" → Derives R .unary u e → R.Covers ([t] ++ u) s →
      Derives R .unary ([t] ++ u) (.await e s)
  | unaryMark {t : τ} {u : List τ} {op : UnaryOp} {e : Expr σ} {s : σ} :
      op ∈ UnaryOp.marks → R.IsOperator t op.symbol → Derives R .unary u e →
      R.Covers ([t] ++ u) s → Derives R .unary ([t] ++ u) (.unary op e s)
  | unaryWord {t : τ} {u : List τ} {op : UnaryOp} {e : Expr σ} {s : σ} :
      op ∈ UnaryOp.words → R.IsKeyword t op.symbol → Derives R .unary u e →
      R.Covers ([t] ++ u) s → Derives R .unary ([t] ++ u) (.unary op e s)
  | updateOfChain {u : List τ} {e : Expr σ} : Derives R .chain u e → Derives R .update u e
  | updateBefore {t : τ} {u : List τ} {op : UpdateOp} {e : Expr σ} {s : σ} :
      R.IsOperator t op.symbol → Derives R .unary u e → e.isUpdateTarget →
      R.Covers ([t] ++ u) s → Derives R .update ([t] ++ u) (.update op true e s)
  | updateAfter {t : τ} {u : List τ} {op : UpdateOp} {e : Expr σ} {s : σ} :
      Derives R .chain u e → e.isUpdateTarget → R.IsOperator t op.symbol →
      R.Covers (u ++ [t]) s → Derives R .update (u ++ [t]) (.update op false e s)
  /- Calls and accesses -/
  | chainOfPrimary {u : List τ} {e : Expr σ} : Derives R .primary u e → Derives R .chain u e
  | call {u v : List τ} {callee : Expr σ} {args : List (Expr σ)} {s : σ} :
      Derives R .chain u callee → Derives R .arguments v args → R.Covers (u ++ v) s →
      Derives R .chain (u ++ v) (.call callee args s)
  | chainAccess {u v : List τ} {object : Expr σ} {property : MemberProperty σ} {s : σ} :
      Derives R .chain u object → Derives R .access v property → R.Covers (u ++ v) s →
      Derives R .chain (u ++ v) (.member object property property.isComputed s)
  | chainNew {u v : List τ} {t : τ} {callee : Expr σ} {args : List (Expr σ)} {s : σ} :
      Derives R .chain u callee → R.IsKeyword t "new" → Derives R .optionalArguments v args →
      R.Covers (u ++ [t] ++ v) s → Derives R .chain (u ++ [t] ++ v) (.new callee args s)
  | calleeOfPrimary {u : List τ} {e : Expr σ} : Derives R .primary u e → Derives R .callee u e
  | calleeAccess {u v : List τ} {object : Expr σ} {property : MemberProperty σ} {s : σ} :
      Derives R .callee u object → Derives R .access v property → R.Covers (u ++ v) s →
      Derives R .callee (u ++ v) (.member object property property.isComputed s)
  | computedAccess {start stop : τ} {u : List τ} {e : Expr σ} :
      R.IsMark start "[" → Derives R .assignment u e → R.IsMark stop "]" →
      Derives R .access ([start] ++ u ++ [stop]) (.expr e)
  | namedAccess {point t : τ} {s : σ} :
      R.IsMark point "." → R.IsName t → R.Covers [t] s →
      Derives R .access ([point] ++ [t]) (.ident (R.ident t s))
  | noArguments {start stop : τ} :
      R.IsMark start "(" → R.IsMark stop ")" → Derives R .arguments ([start] ++ [stop]) []
  | arguments {start stop : τ} {u : List τ} {args : List (Expr σ)} :
      R.IsMark start "(" → Derives R .expressions u args → R.IsMark stop ")" →
      Derives R .arguments ([start] ++ u ++ [stop]) args
  | omittedArguments : Derives R .optionalArguments [] []
  | givenArguments {u : List τ} {args : List (Expr σ)} :
      Derives R .arguments u args → Derives R .optionalArguments u args
  | oneExpression {u : List τ} {e : Expr σ} :
      Derives R .assignment u e → Derives R .expressions u [e]
  | moreExpressions {u v : List τ} {comma : τ} {e : Expr σ} {es : List (Expr σ)} :
      Derives R .assignment u e → R.IsMark comma "," → Derives R .expressions v es →
      Derives R .expressions (u ++ [comma] ++ v) (e :: es)
  /- Primaries -/
  | reference {t : τ} {s : σ} :
      R.IsReference t → R.Covers [t] s → Derives R .primary [t] (.ident (R.ident t s))
  | this {t : τ} {s : σ} :
      R.IsKeyword t "this" → R.Covers [t] s → Derives R .primary [t] (.this s)
  | super {t : τ} {s : σ} :
      R.IsKeyword t "super" → R.Covers [t] s → Derives R .primary [t] (.super s)
  | number {t : τ} {value : Double} {s : σ} :
      R.kind t = .number → Double.ofNumeral? (R.text t) = some value → R.Covers [t] s →
      Derives R .primary [t] (.literal ⟨.number value, R.text t, s⟩)
  | string {t : τ} {s : σ} :
      R.kind t = .string → R.Covers [t] s →
      Derives R .primary [t] (.literal ⟨.string (literalBody (R.text t)), R.text t, s⟩)
  | boolean {t : τ} {s : σ} :
      R.kind t = .boolean → R.Covers [t] s →
      Derives R .primary [t] (.literal ⟨.boolean (R.text t = "true"), R.text t, s⟩)
  | null {t : τ} {s : σ} :
      R.kind t = .null → R.Covers [t] s → Derives R .primary [t] (.literal ⟨.null, R.text t, s⟩)
  | template {t : τ} {s : σ} :
      R.kind t = .templateString → R.Covers [t] s →
      Derives R .primary [t] (.template [⟨literalBody (R.text t), R.text t, true, s⟩] [] s)
  | functionExpression {u : List τ} {f : Func σ} :
      Derives R .function u f → Derives R .primary u (.function f)
  | group {start stop : τ} {u : List τ} {e : Expr σ} :
      R.IsMark start "(" → Derives R .assignment u e → R.IsMark stop ")" →
      Derives R .primary ([start] ++ u ++ [stop]) e
  | new {t : τ} {u v : List τ} {callee : Expr σ} {args : List (Expr σ)} {s : σ} :
      R.IsKeyword t "new" → Derives R .callee u callee → Derives R .optionalArguments v args →
      R.Covers ([t] ++ u ++ v) s → Derives R .primary ([t] ++ u ++ v) (.new callee args s)
  | array {start stop : τ} {u : List τ} {slots : List (Option (Expr σ))} {s : σ} :
      R.IsMark start "[" → Derives R .slots u slots → R.IsMark stop "]" →
      R.Covers ([start] ++ u ++ [stop]) s →
      Derives R .primary ([start] ++ u ++ [stop]) (.array slots s)
  | noSlots : Derives R .slots [] []
  | hole {comma : τ} {u : List τ} {slots : List (Option (Expr σ))} :
      R.IsMark comma "," → Derives R .slots u slots →
      Derives R .slots ([comma] ++ u) (none :: slots)
  | lastSlot {u : List τ} {e : Expr σ} :
      Derives R .assignment u e → Derives R .slots u [some e]
  | moreSlots {u v : List τ} {comma : τ} {e : Expr σ} {slots : List (Option (Expr σ))} :
      Derives R .assignment u e → R.IsMark comma "," → Derives R .slots v slots →
      Derives R .slots (u ++ [comma] ++ v) (some e :: slots)
  | object {start stop : τ} {u : List τ} {ps : List (Property σ)} {s : σ} :
      R.IsMark start "\x7b" → Derives R .properties u ps → R.IsMark stop "\x7d" →
      R.Covers ([start] ++ u ++ [stop]) s →
      Derives R .primary ([start] ++ u ++ [stop]) (.object ps s)
  | noProperties : Derives R .properties [] []
  | lastProperty {u : List τ} {p : Property σ} :
      Derives R .property u p → Derives R .properties u [p]
  | moreProperties {u v : List τ} {comma : τ} {p : Property σ} {ps : List (Property σ)} :
      Derives R .property u p → R.IsMark comma "," → Derives R .properties v ps →
      Derives R .properties (u ++ [comma] ++ v) (p :: ps)
  /- Properties and keys -/
  | valueProperty {u v : List τ} {colon : τ} {key : PropertyKey σ} {value : Expr σ} {s : σ} :
      Derives R .key u key → R.IsMark colon ":" → Derives R .assignment v value →
      R.Covers (u ++ [colon] ++ v) s →
      Derives R .property (u ++ [colon] ++ v)
        ⟨key, value, .init, key.isComputed, false, false, s⟩
  | shorthandProperty {t : τ} {s s' : σ} :
      R.IsReference t → R.Covers [t] s → R.Covers [t] s' →
      Derives R .property [t]
        ⟨.ident (R.ident t s), .ident (R.ident t s), .init, false, true, false, s'⟩
  | methodProperty {async generator : Bool} {u v w x : List τ} {key : PropertyKey σ}
      {value : Func σ} {s : σ} :
      Flag (R.IsWord · "async") async u → Flag (R.IsOperator · "*") generator v →
      Derives R .key w key → Derives R (.method async generator) x value →
      R.Covers (u ++ v ++ w ++ x) s →
      Derives R .property (u ++ v ++ w ++ x)
        ⟨key, .function value, .init, key.isComputed, false, true, s⟩
  | accessorProperty {getter : Bool} {t : τ} {u v : List τ} {key : PropertyKey σ}
      {value : Func σ} {s : σ} :
      R.IsWord t (if getter then "get" else "set") → Derives R .key u key →
      Derives R (.method false false) v value → R.Covers ([t] ++ u ++ v) s →
      Derives R .property ([t] ++ u ++ v)
        ⟨key, .function value, if getter then .get else .set, key.isComputed, false, false, s⟩
  | computedKey {start stop : τ} {u : List τ} {e : Expr σ} :
      R.IsMark start "[" → Derives R .assignment u e → R.IsMark stop "]" →
      Derives R .key ([start] ++ u ++ [stop]) (.computed e)
  | nameKey {t : τ} {s : σ} :
      R.IsName t → R.Covers [t] s → Derives R .key [t] (.ident (R.ident t s))
  | stringKey {t : τ} {s : σ} :
      R.kind t = .string → R.Covers [t] s →
      Derives R .key [t] (.literal ⟨.string (literalBody (R.text t)), R.text t, s⟩)
  | numberKey {t : τ} {value : Double} {s : σ} :
      R.kind t = .number → Double.ofNumeral? (R.text t) = some value → R.Covers [t] s →
      Derives R .key [t] (.literal ⟨.number value, R.text t, s⟩)

end Grammar

end JsSyntax
