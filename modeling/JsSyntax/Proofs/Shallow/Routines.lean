import JsSyntax.Parse.Statement
import JsSyntax.Proofs.Parse.Gives
import JsSyntax.Proofs.Shallow.Nodes
import JsSyntax.Proofs.Sound.Expression

/-! # The routines of the grammar return shallow nodes

When the routines one level deeper return nodes that are shallow at `n`, every routine of the
grammar returns nodes that are shallow at `n + 1`: it asks for what stands in a guarded position one
level deeper, and builds or reads the rest itself. From level to level, the routines of `level n`
return nodes that are shallow at `n` (`level_shallow`).
-/

set_option autoImplicit false

namespace JsSyntax

open Node (Fits)

/-- The value of a property is as shallow as the expression, also if it is a function that counts as
no expression. -/
theorem Property.shallow_valueNode {σ : Type} {p : Property σ} {n : Nat}
    (h : (Node.expr p.value).Shallow n) : p.valueNode.Shallow n := by
  unfold Property.valueNode
  split
  · exact h
  · split
    · next f hf =>
      rw [hf] at h
      obtain ⟨k, rfl⟩ : ∃ k, n = k + 1 := ⟨n - 1, by have := h.pos; omega⟩
      exact h.fits List.mem_cons_self
    · exact h

namespace Parse

/-- What the routines return is shallow at `n`. -/
structure Deeper.Shallow (n : Nat) (d : Deeper) : Prop where
  statement : Gives d.statement fun st => (Node.statement st).Shallow n
  assignment : Gives d.assignment fun e => (Node.expr e).Shallow n
  unary : Gives d.unary fun e => (Node.expr e).Shallow n
  construction : Gives d.construction fun e => (Node.expr e).Shallow n

section
variable {n : Nat} {d : Deeper} (hd : d.Shallow n)

/-! ## Functions and keys -/

include hd in
theorem block_shallow : Gives (block d) fun b => (Node.block b).Shallow (n + 1) := by
  have hitem : Gives (d.statement >>= fun st => pure (.more st))
      (Item.Holds fun st => (Node.statement st).Shallow n) :=
    .bind hd.statement fun st hst => .pure hst
  refine .skip fun start => .skip fun _ => .bind (.collect (.upTo hitem)) fun body hbody => ?_
  exact .skip fun _ => .skip fun s => .pure (.of_sites (.map hbody))

include hd in
theorem methodFunction_shallow {async generator : Bool} :
    Gives (methodFunction d async generator) fun f => (Node.function f).Shallow (n + 1) := by
  refine .skip fun start => .skip fun params => .bind (block_shallow hd) fun body hbody => ?_
  exact .skip fun s => .pure (.of_sites (.append (.append .nil (.names params)) (.one hbody)))

include hd in
theorem function_shallow : Gives (function d) fun f => (Node.function f).Shallow (n + 1) := by
  refine .skip fun start => .skip fun async => .skip fun _ => .skip fun generator => ?_
  refine .skip fun t => .iteSkip fun id => .skip fun params => ?_
  refine .bind (block_shallow hd) fun body hbody => .skip fun s => .pure (.of_sites ?_)
  exact .append (.append (.option fun _ _ => .leaf rfl) (.names params)) (.one hbody)

include hd in
theorem propertyKey_shallow : Gives (propertyKey d) fun x => Fits n [x.1.site] := by
  refine .skip fun t => .ite ?_ (.ite ?_ (.ite ?_ (.ite ?_ .fail)))
  · refine .skip fun _ => .bind hd.assignment fun e he => .skip fun _ => .pure (.one he)
  · exact .skip fun _ => .pure (.name _)
  · exact .skip fun value => .pure (.one (.leaf rfl))
  · exact .skip fun value => .pure (.one (.leaf rfl))

/-! ## Members of objects and classes -/

include hd in
theorem property_shallow : Gives (property d) fun p => (Node.property p).Shallow (n + 1) := by
  refine .skip fun start => .skip fun accessor => .iteSkip fun async => .iteSkip fun generator => ?_
  refine .skip fun first => .bind (propertyKey_shallow hd) fun ⟨key, computed⟩ hkey => ?_
  refine .skip fun call => .ite ?_ (.skip fun colon => .ite ?_ ?_)
  · refine .bind (methodFunction_shallow hd) fun f hf => .skip fun s => .pure (.of_sites ?_)
    refine .append hkey (.one ?_)
    rcases accessor with _ | _ | _ <;> exact hf
  · refine .bind hd.assignment fun value hvalue => .skip fun s => .pure (.of_sites ?_)
    exact .append hkey (.one ((Property.shallow_valueNode hvalue).room _))
  · cases key with
    | ident id =>
      refine .ite (.skip fun s => .pure (.of_sites (.append hkey (.one ?_)))) .fail
      have hvalue : (Node.expr (.ident id)).Shallow (n + 1) := .of_sites (.name id)
      rcases accessor with _ | _ | _ <;> exact hvalue
    | literal value => exact .fail
    | computed e => exact .fail

include hd in
theorem methodDefinition_shallow :
    Gives (methodDefinition d) fun m => (Node.method m).Shallow (n + 1) := by
  refine .skip fun start => .skip fun static => .skip fun async => .skip fun generator => ?_
  refine .iteSkip fun accessor => .bind (propertyKey_shallow hd) fun ⟨key, computed⟩ hkey => ?_
  refine .bind (methodFunction_shallow hd) fun f hf => .skip fun s => .pure (.of_sites ?_)
  exact .append hkey (.one hf)

/-! ## Primaries -/

include hd in
theorem arrayLiteral_shallow : Gives (arrayLiteral d) fun e => (Node.expr e).Shallow (n + 1) := by
  have hslot : Gives (acceptMark "," >>= fun hole => if hole then pure (.more none)
      else commaItem (some <$> d.assignment))
      (Item.Holds fun slot => ∀ e ∈ slot, (Node.expr e).Shallow n) := by
    exact .skip fun hole => .ite (.pure nofun) (.commaItem hd.assignment.some)
  refine .skip fun start => .skip fun _ => .bind (.collect (.upTo hslot)) fun slots hslots => ?_
  exact .skip fun _ => .skip fun s => .pure (.of_sites (.slots hslots))

include hd in
theorem objectLiteral_shallow : Gives (objectLiteral d) fun e => (Node.expr e).Shallow (n + 1) := by
  refine .skip fun start => .skip fun _ => ?_
  refine .bind (.collect (.upTo (.commaItem (property_shallow hd)))) fun ps hps => ?_
  exact .skip fun _ => .skip fun s => .pure (.of_sites (.map hps))

include hd in
theorem group_shallow : Gives (group d) fun e => (Node.expr e).Shallow (n + 1) :=
  .skip fun _ => .bind hd.assignment fun _ he => .skip fun _ => .pure he.succ

include hd in
theorem keywordPrimary_shallow :
    Gives (keywordPrimary d) fun e => (Node.expr e).Shallow (n + 1) := by
  refine .skip fun t => .ite ?_ (.ite ?_ (.ite ?_ (.skip fun next => ?_)))
  · exact .skip fun _ => .pure (.leaf rfl)
  · exact .skip fun _ => .pure (.leaf rfl)
  · exact .skip fun _ => .pure (.of_sites (.name _))
  refine .ite ?_ (.ite ?_ .unexpected)
  · exact .bind (function_shallow hd) fun f hf => .pure (.of_sites (.one hf))
  · exact hd.construction.mono fun e he => he.succ

include hd in
theorem markPrimary_shallow : Gives (markPrimary d) fun e => (Node.expr e).Shallow (n + 1) :=
  .skip fun _ => .ite (group_shallow hd)
    (.ite (arrayLiteral_shallow hd) (.ite (objectLiteral_shallow hd) .unexpected))

include hd in
theorem primary_shallow : Gives (primary d) fun e => (Node.expr e).Shallow (n + 1) := by
  refine .skip fun t => ?_
  cases t.kind with
  | identifier => exact .skip fun _ => .pure (.of_sites (.name _))
  | number | string => exact .skip fun value => .pure (.of_sites (.one (.leaf rfl)))
  | boolean | null => exact .skip fun _ => .pure (.of_sites (.one (.leaf rfl)))
  | templateString => exact .skip fun _ => .pure (.of_sites (.one (.leaf rfl)))
  | punctuation => exact markPrimary_shallow hd
  | keyword => exact keywordPrimary_shallow hd
  | operator | comment | eof | unknown => exact .unexpected

/-! ## Calls and accesses -/

include hd in
theorem arguments_shallow :
    Gives (arguments d) fun es => ∀ e ∈ es, (Node.expr e).Shallow n := by
  refine .skip fun empty => .iteBind (.pure nofun) (.collect (.commaItem hd.assignment)) ?_
  exact fun es hes => .skip fun _ => .pure hes

include hd in
theorem optionalArguments_shallow :
    Gives (optionalArguments d) fun es => ∀ e ∈ es, (Node.expr e).Shallow n :=
  .skip fun _ => .ite (arguments_shallow hd) (.pure nofun)

include hd in
theorem memberAccess?_shallow {start : Span} {object : Expr Span}
    (h : (Node.expr object).Shallow (n + 1)) :
    Gives (memberAccess? d start object) fun x => ∀ e ∈ x, (Node.expr e).Shallow (n + 1) := by
  refine .skip fun bracket => .ite ?_ (.skip fun point => .ite ?_ (.pure nofun))
  · refine .bind hd.assignment fun e he => .skip fun _ => .skip fun s => .pure ?_
    rintro _ ⟨⟩
    exact .of_sites (.two h he)
  · refine .skip fun id => .skip fun s => .pure ?_
    rintro _ ⟨⟩
    exact .of_sites (.cons h (.name id))

include hd in
theorem chainLink?_shallow {start : Span} {e : Expr Span} (h : (Node.expr e).Shallow (n + 1)) :
    Gives (chainLink? d start e) fun x => ∀ e ∈ x, (Node.expr e).Shallow (n + 1) := by
  refine .skip fun call => .ite ?_ (.bind (memberAccess?_shallow hd h) fun x hx => ?_)
  · refine .bind (arguments_shallow hd) fun args hargs => .skip fun s => .pure ?_
    rintro _ ⟨⟩
    exact .of_sites (.cons h (.map hargs))
  · cases x with
    | some access => exact .pure hx
    | none =>
      refine .skip fun new => .ite ?_ (.pure nofun)
      refine .bind (optionalArguments_shallow hd) fun args hargs => .skip fun s => .pure ?_
      rintro _ ⟨⟩
      exact .of_sites (.cons h (.map hargs))

include hd in
theorem chain_shallow : Gives (chain d) fun e => (Node.expr e).Shallow (n + 1) :=
  .skip fun _ => .bind (primary_shallow hd) fun _ he =>
    .iterate he fun _ ha => chainLink?_shallow hd ha

include hd in
theorem construction_shallow : Gives (construction d) fun e => (Node.expr e).Shallow (n + 1) := by
  refine .skip fun start => .skip fun _ => .skip fun calleeStart => ?_
  refine .bind (primary_shallow hd) fun e he => ?_
  refine .bind (.iterate he fun _ ha => memberAccess?_shallow hd ha) fun callee hcallee => ?_
  refine .bind (optionalArguments_shallow hd) fun args hargs => .skip fun s => .pure ?_
  exact .of_sites (.cons hcallee (.map hargs))

/-! ## Operators -/

include hd in
theorem update_shallow : Gives (update d) fun e => (Node.expr e).Shallow (n + 1) := by
  refine .skip fun start => .skip fun op => ?_
  cases op with
  | some op =>
    refine .bind hd.unary fun e he => .skip fun _ => .skip fun s => .pure ?_
    exact .of_sites (.one he)
  | none =>
    refine .bind (chain_shallow hd) fun e he => .skip fun op => ?_
    cases op with
    | some op => exact .skip fun _ => .skip fun _ => .skip fun s => .pure (.of_sites (.one he))
    | none => exact .pure he

include hd in
theorem unary_shallow : Gives (unary d) fun e => (Node.expr e).Shallow (n + 1) := by
  refine .skip fun start => .skip fun await => .ite ?_ (.skip fun op => ?_)
  · exact .bind hd.unary fun e he => .skip fun s => .pure (.of_sites (.one he))
  · cases op with
    | some op => exact .bind hd.unary fun e he => .skip fun s => .pure (.of_sites (.one he))
    | none => exact update_shallow hd

/-- Operands with operators between them, if the node of an operator leaves its operands where they
are. -/
theorem leftAssociative_shallow {α : Type} {operator : ParseM (Option α)}
    {build : α → Expr Span → Expr Span → Span → Expr Span} {operand : ParseM (Expr Span)}
    (hoperand : Gives operand fun e => (Node.expr e).Shallow (n + 1))
    (hbuild : ∀ op l r s, (Node.expr l).Shallow (n + 1) → (Node.expr r).Shallow (n + 1) →
      (Node.expr (build op l r s)).Shallow (n + 1)) :
    Gives (leftAssociative operator build operand) fun e => (Node.expr e).Shallow (n + 1) := by
  refine .skip fun start => .bind hoperand fun e he => .iterate he fun left hleft => ?_
  refine .skip fun op => ?_
  cases op with
  | some op =>
    refine .bind hoperand fun right hright => .skip fun s => .pure ?_
    rintro _ ⟨⟩
    exact hbuild op left right s hleft hright
  | none => exact .pure nofun

theorem binaryLevel_shallow {ops : List BinaryOp} {operand : ParseM (Expr Span)}
    (h : Gives operand fun e => (Node.expr e).Shallow (n + 1)) :
    Gives (binaryLevel ops operand) fun e => (Node.expr e).Shallow (n + 1) :=
  leftAssociative_shallow h fun _ _ _ _ hl hr => .of_sites (.two hl hr)

theorem logicalLevel_shallow {op : LogicalOp} {operand : ParseM (Expr Span)}
    (h : Gives operand fun e => (Node.expr e).Shallow (n + 1)) :
    Gives (logicalLevel op operand) fun e => (Node.expr e).Shallow (n + 1) :=
  leftAssociative_shallow h fun _ _ _ _ hl hr => .of_sites (.two hl hr)

include hd in
theorem logicalOr_shallow : Gives (logicalOr d) fun e => (Node.expr e).Shallow (n + 1) := by
  have hadditive : Gives (additive d) fun e => (Node.expr e).Shallow (n + 1) :=
    binaryLevel_shallow (binaryLevel_shallow (unary_shallow hd))
  have hequality : Gives (equality d) fun e => (Node.expr e).Shallow (n + 1) :=
    binaryLevel_shallow (binaryLevel_shallow hadditive)
  exact logicalLevel_shallow (logicalLevel_shallow hequality)

include hd in
theorem conditional_shallow : Gives (conditional d) fun e => (Node.expr e).Shallow (n + 1) := by
  refine .skip fun start => .bind (logicalOr_shallow hd) fun test htest => ?_
  refine .skip fun question => .ite ?_ (.pure htest)
  refine .bind hd.assignment fun consequent hconsequent => .skip fun _ => ?_
  refine .bind hd.assignment fun alternate halternate => .skip fun s => .pure ?_
  exact .of_sites (.cons htest (.two hconsequent halternate))

theorem target_shallow {e : Expr Span} (h : (Node.expr e).Shallow n) :
    Gives (target e) fun p => (Node.pattern p).Shallow n := by
  intro s p s' hok
  obtain ⟨-, rfl⟩ := target_reads hok
  exact .pattern h

include hd in
theorem assignment_shallow : Gives (assignment d) fun e => (Node.expr e).Shallow (n + 1) := by
  refine .skip fun start => .bind (conditional_shallow hd) fun left hleft => .skip fun op => ?_
  cases op with
  | some op =>
    refine .bind (target_shallow hleft) fun p hp => ?_
    exact .bind hd.assignment fun right hright => .skip fun s => .pure (.of_sites (.two hp hright))
  | none => exact .pure hleft

/-! ## Declarations -/

include hd in
theorem variableDeclarator_shallow :
    Gives (variableDeclarator d) fun x => (Node.declarator x).Shallow (n + 1) := by
  refine .skip fun id => .skip fun equals => .optional hd.assignment fun init hinit => ?_
  exact .skip fun s => .pure (.of_sites (.cons (.leaf rfl) (.option hinit)))

include hd in
theorem variableList_shallow {kind : VariableKind} {start : Span} :
    Gives (variableList d kind start) fun x => (Node.declaration x).Shallow (n + 1) := by
  refine .bind (.collect (.commaItem (variableDeclarator_shallow hd))) fun ds hds => ?_
  exact .skip fun s => .pure (.of_sites (.map hds))

include hd in
theorem variableDeclaration_shallow {kind : VariableKind} {start : Span} :
    Gives (variableDeclaration d kind start) fun x => (Node.declaration x).Shallow (n + 1) :=
  .bind (variableList_shallow hd) fun _ hx =>
    .skip fun _ => .skip fun _ => .pure (.of_sites hx.fits)

include hd in
theorem classBody_shallow : Gives (classBody d) fun b => (Node.classBody b).Shallow (n + 1) := by
  have hitem : Gives (acceptMark ";" >>= fun semicolon => if semicolon then pure (.more none)
      else methodDefinition d >>= fun m => pure (.more (some m)))
      (Item.Holds fun x => ∀ m ∈ x, (Node.method m).Shallow (n + 1)) := by
    refine .skip fun semicolon => .ite (.pure nofun) (.bind (methodDefinition_shallow hd) ?_)
    refine fun m hm => .pure ?_
    rintro _ ⟨⟩
    exact hm
  refine .skip fun start => .skip fun _ => .bind (.collect (.upTo hitem)) fun ms hms => ?_
  refine .skip fun _ => .skip fun s => .pure (.of_sites (.map fun m hm => ?_))
  obtain ⟨x, hx, hxm⟩ := List.mem_filterMap.1 hm
  exact hms x hx m hxm

include hd in
theorem classDeclaration_shallow :
    Gives (classDeclaration d) fun c => (Node.classDeclaration c).Shallow (n + 1) := by
  refine .skip fun start => .skip fun _ => .skip fun id => .skip fun extended => ?_
  refine .optional (chain_shallow hd) fun superClass hsuper => ?_
  refine .bind (classBody_shallow hd) fun body hbody => .skip fun s => .pure (.of_sites ?_)
  exact .append (.cons (.leaf rfl) (.option hsuper)) (.one hbody)

/-! ## Statements -/

include hd in
theorem ifStatement_shallow :
    Gives (ifStatement d) fun st => (Node.statement st).Shallow (n + 1) := by
  refine .skip fun start => .skip fun _ => .skip fun _ => .bind hd.assignment fun test htest => ?_
  refine .skip fun _ => .bind hd.statement fun consequent hconsequent => .skip fun next => ?_
  refine .optional hd.statement fun alternate halternate => .skip fun s => .pure (.of_sites ?_)
  exact .cons htest (.cons hconsequent (.option halternate))

include hd in
theorem forInit_shallow :
    Gives (forInit d) fun x => ∀ init ∈ x, init.site.2.Shallow (init.site.1.room n) := by
  refine .skip fun empty => .ite (.pure nofun) (.skip fun start => .skip fun kind => ?_)
  cases kind with
  | some kind =>
    refine .bind (variableList_shallow hd) fun x hx => .pure ?_
    rintro _ ⟨⟩
    exact hx
  | none =>
    refine .bind hd.assignment fun e he => .pure ?_
    rintro _ ⟨⟩
    exact he

include hd in
theorem optionalBefore_shallow {mark : String} :
    Gives (optionalBefore d mark) fun x => ∀ e ∈ x, (Node.expr e).Shallow n :=
  .skip fun _ => .ite (.pure nofun) hd.assignment.some

include hd in
theorem forStatement_shallow :
    Gives (forStatement d) fun st => (Node.statement st).Shallow (n + 1) := by
  refine .skip fun start => .skip fun _ => .skip fun _ => ?_
  refine .bind (forInit_shallow hd) fun init hinit => .skip fun _ => ?_
  refine .bind (optionalBefore_shallow hd) fun test htest => .skip fun _ => ?_
  refine .bind (optionalBefore_shallow hd) fun update hupdate => .skip fun _ => ?_
  refine .bind hd.statement fun body hbody => .skip fun s => .pure (.of_sites ?_)
  have hhead : Fits n (init.toList.map ForInit.site) := by
    intro role c hmem
    obtain ⟨x, hx, heq⟩ := List.mem_map.1 hmem
    have := hinit x (Option.mem_toList.1 hx)
    rwa [heq] at this
  exact .append (.append (.append hhead (.option htest)) (.option hupdate)) (.one hbody)

include hd in
theorem whileStatement_shallow :
    Gives (whileStatement d) fun st => (Node.statement st).Shallow (n + 1) := by
  refine .skip fun start => .skip fun _ => .skip fun _ => .bind hd.assignment fun test htest => ?_
  refine .skip fun _ => .bind hd.statement fun body hbody => .skip fun s => .pure ?_
  exact .of_sites (.two htest hbody)

include hd in
theorem returnStatement_shallow :
    Gives (returnStatement d) fun st => (Node.statement st).Shallow (n + 1) := by
  refine .skip fun start => .skip fun _ => .bind (optionalBefore_shallow hd) fun e he => ?_
  exact .skip fun _ => .skip fun s => .pure (.of_sites (.option he))

include hd in
theorem expressionStatement_shallow :
    Gives (expressionStatement d) fun st => (Node.statement st).Shallow (n + 1) :=
  .skip fun _ => .bind hd.assignment fun _ he =>
    .skip fun _ => .skip fun _ => .pure (.of_sites (.one he))

include hd in
theorem keywordStatement_shallow :
    Gives (keywordStatement d) fun st => (Node.statement st).Shallow (n + 1) := by
  refine .skip fun t => .skip fun next => .ite ?_ (.ite ?_ (.ite (ifStatement_shallow hd)
    (.ite (forStatement_shallow hd) (.ite (whileStatement_shallow hd)
      (.ite (returnStatement_shallow hd) (expressionStatement_shallow hd))))))
  · exact .bind (function_shallow hd) fun f hf => .pure (.of_sites (.one hf))
  · exact .bind (classDeclaration_shallow hd) fun c hc => .pure (.of_sites (.one hc))

include hd in
theorem statement_shallow : Gives (statement d) fun st => (Node.statement st).Shallow (n + 1) := by
  refine .skip fun t => .skip fun _ => .skip fun kind => ?_
  cases kind with
  | some kind =>
    exact .bind (variableDeclaration_shallow hd) fun x hx => .pure (.of_sites (.one hx))
  | none =>
    refine .ite (keywordStatement_shallow hd) (.ite ?_ (.ite ?_ (expressionStatement_shallow hd)))
    · exact .bind (block_shallow hd) fun b hb => .pure (.of_sites (.one hb))
    · exact .skip fun _ => .pure (.leaf rfl)

end

/-! ## Levels -/

/-- With `n` levels left, at most `n` nodes on a path stand in guarded positions, with the node
itself. -/
theorem level_shallow : ∀ n, (level n).Shallow n
  | 0 => ⟨.fail, .fail, .fail, .fail⟩
  | n + 1 =>
    have hd := level_shallow n
    ⟨statement_shallow hd, assignment_shallow hd, unary_shallow hd, construction_shallow hd⟩

end Parse

end JsSyntax
