import JsSyntax.Ast.Map
import JsSyntax.Parse.Member
import JsSyntax.Proofs.Target
import JsSyntax.Proofs.Grammar.Reading

/-! # Parts of nodes under a change of annotation

What is read off a node without its annotations is the same after a change of annotation, and what
makes one node of another goes along with it.
-/

set_option autoImplicit false

namespace JsSyntax

section
variable {σ σ' : Type} (g : σ → σ')

@[simp] theorem PropertyKey.isComputed_map (key : PropertyKey σ) :
    (key.map g).isComputed = key.isComputed := by
  cases key <;> rfl

@[simp] theorem PropertyKey.name?_map (key : PropertyKey σ) : (key.map g).name? = key.name? := by
  cases key with
  | ident id => rfl
  | literal value =>
    obtain ⟨value, raw, s⟩ := value
    cases value <;> rfl
  | computed value => rfl

@[simp] theorem MemberProperty.isComputed_map (property : MemberProperty σ) :
    (property.map g).isComputed = property.isComputed := by
  cases property <;> rfl

@[simp] theorem Expr.isUpdateTarget_map (e : Expr σ) :
    (e.map g).isUpdateTarget = e.isUpdateTarget := by
  cases e <;> simp [Expr.map, Expr.isUpdateTarget]

@[simp] theorem Parse.methodKind_map (accessor : Option Bool) (static computed : Bool)
    (key : PropertyKey σ) :
    methodKind accessor static computed (key.map g) = methodKind accessor static computed key := by
  simp [methodKind]

mutual

theorem Pattern.toExpr_map : (p : Pattern σ) → (p.map g).toExpr = p.toExpr.map g
  | .ident _ => by simp [Pattern.map, Pattern.toExpr, Expr.map]
  | .member .. => by simp [Pattern.map, Pattern.toExpr, Expr.map]
  | .array elements s => by
    have h := Pattern.slotsToExprs_map elements
    simp only [Pattern.map, Pattern.toExpr, Expr.map, h]
  | .object properties s => by
    have h := PatternProperty.allToProperties_map properties
    simp only [Pattern.map, Pattern.toExpr, Expr.map, h]

theorem Pattern.slotsToExprs_map : (slots : List (Option (Pattern σ))) →
    Pattern.slotsToExprs (Pattern.mapSlots g slots) = Expr.mapSlots g (Pattern.slotsToExprs slots)
  | [] => rfl
  | none :: slots => by
    have h := Pattern.slotsToExprs_map slots
    simp only [Pattern.mapSlots, Pattern.mapOption, Pattern.slotsToExprs, Pattern.slotToExpr,
      Expr.mapSlots, Expr.mapOption, h]
  | some p :: slots => by
    have hp := Pattern.toExpr_map p
    have h := Pattern.slotsToExprs_map slots
    simp only [Pattern.mapSlots, Pattern.mapOption, Pattern.slotsToExprs, Pattern.slotToExpr,
      Expr.mapSlots, Expr.mapOption, hp, h]

theorem PatternProperty.allToProperties_map : (ps : List (PatternProperty σ)) →
    PatternProperty.allToProperties (PatternProperty.mapAll g ps) =
      Property.mapAll g (PatternProperty.allToProperties ps)
  | [] => rfl
  | ⟨key, value, computed, shorthand, s⟩ :: ps => by
    have hp := Pattern.toExpr_map value
    have h := PatternProperty.allToProperties_map ps
    simp only [PatternProperty.mapAll, PatternProperty.map, PatternProperty.allToProperties,
      PatternProperty.toProperty, Property.mapAll, Property.map, hp, h]

end

end

/-! ## No change -/

section
variable {σ : Type}

mutual

theorem Expr.map_id : (e : Expr σ) → e.map id = e
  | .literal _ => by simp only [Expr.map, Literal.map, id]
  | .array elements s => by simp only [Expr.map, Expr.mapSlots_id elements, id]
  | .object properties s => by simp only [Expr.map, Property.mapAll_id properties, id]
  | .function value => by simp only [Expr.map, Func.map_id value]
  | .template quasis expressions s => by
    have hquasis : quasis.map (TemplateElement.map id) = quasis := List.map_id'' (fun _ => rfl) _
    simp only [Expr.map, hquasis, Expr.mapAll_id expressions, id]
  | .ident _ => by simp only [Expr.map, Ident.map, id]
  | .this _ => by simp only [Expr.map, id]
  | .super _ => by simp only [Expr.map, id]
  | .unary _ argument _ => by simp only [Expr.map, argument.map_id, id]
  | .binary _ left right _ => by simp only [Expr.map, left.map_id, right.map_id, id]
  | .logical _ left right _ => by simp only [Expr.map, left.map_id, right.map_id, id]
  | .conditional test consequent alternate _ => by
    simp only [Expr.map, test.map_id, consequent.map_id, alternate.map_id, id]
  | .assign _ left right _ => by simp only [Expr.map, left.map_id, right.map_id, id]
  | .update _ _ argument _ => by simp only [Expr.map, argument.map_id, id]
  | .await argument _ => by simp only [Expr.map, argument.map_id, id]
  | .member object property _ _ => by simp only [Expr.map, object.map_id, property.map_id, id]
  | .call callee arguments _ => by
    simp only [Expr.map, callee.map_id, Expr.mapAll_id arguments, id]
  | .new callee arguments _ => by
    simp only [Expr.map, callee.map_id, Expr.mapAll_id arguments, id]

theorem Expr.mapAll_id : (es : List (Expr σ)) → Expr.mapAll id es = es
  | [] => rfl
  | e :: es => by simp only [Expr.mapAll, e.map_id, Expr.mapAll_id es]

theorem Expr.mapOption_id : (e : Option (Expr σ)) → Expr.mapOption id e = e
  | none => rfl
  | some e => by simp only [Expr.mapOption, e.map_id]

theorem Expr.mapSlots_id : (es : List (Option (Expr σ))) → Expr.mapSlots id es = es
  | [] => rfl
  | e :: es => by simp only [Expr.mapSlots, Expr.mapOption_id e, Expr.mapSlots_id es]

theorem MemberProperty.map_id : (p : MemberProperty σ) → p.map id = p
  | .ident _ => by simp only [MemberProperty.map, Ident.map, id]
  | .expr value => by simp only [MemberProperty.map, value.map_id]

theorem PropertyKey.map_id : (key : PropertyKey σ) → key.map id = key
  | .ident _ => by simp only [PropertyKey.map, Ident.map, id]
  | .literal _ => by simp only [PropertyKey.map, Literal.map, id]
  | .computed value => by simp only [PropertyKey.map, value.map_id]

theorem Property.mapAll_id : (ps : List (Property σ)) → Property.mapAll id ps = ps
  | [] => rfl
  | ⟨key, value, _, _, _, _, _⟩ :: ps => by
    simp only [Property.mapAll, Property.map, key.map_id, value.map_id, Property.mapAll_id ps, id]

theorem Pattern.map_id : (p : Pattern σ) → p.map id = p
  | .ident _ => by simp only [Pattern.map, Ident.map, id]
  | .member object property _ _ => by
    simp only [Pattern.map, object.map_id, property.map_id, id]
  | .array elements _ => by simp only [Pattern.map, Pattern.mapSlots_id elements, id]
  | .object properties _ => by simp only [Pattern.map, PatternProperty.mapAll_id properties, id]

theorem Pattern.mapSlots_id : (ps : List (Option (Pattern σ))) → Pattern.mapSlots id ps = ps
  | [] => rfl
  | none :: ps => by simp only [Pattern.mapSlots, Pattern.mapOption, Pattern.mapSlots_id ps]
  | some p :: ps => by
    simp only [Pattern.mapSlots, Pattern.mapOption, p.map_id, Pattern.mapSlots_id ps]

theorem PatternProperty.mapAll_id :
    (ps : List (PatternProperty σ)) → PatternProperty.mapAll id ps = ps
  | [] => rfl
  | ⟨key, value, _, _, _⟩ :: ps => by
    simp only [PatternProperty.mapAll, PatternProperty.map, key.map_id, value.map_id,
      PatternProperty.mapAll_id ps, id]

theorem Func.map_id : (f : Func σ) → f.map id = f
  | ⟨name, params, body, _, _, _⟩ => by
    have hname : name.map (Ident.map id) = name := by cases name <;> rfl
    have hparams : params.map (Ident.map id) = params := List.map_id'' (fun _ => rfl) _
    simp only [Func.map, hname, hparams, body.map_id, id]

theorem Block.map_id : (b : Block σ) → b.map id = b
  | ⟨body, _⟩ => by simp only [Block.map, Statement.mapAll_id body, id]

theorem Statement.map_id : (st : Statement σ) → st.map id = st
  | .vars declaration => by simp only [Statement.map, declaration.map_id]
  | .function declaration => by simp only [Statement.map, declaration.map_id]
  | .classDeclaration declaration => by simp only [Statement.map, declaration.map_id]
  | .expression value _ => by simp only [Statement.map, value.map_id, id]
  | .block value => by simp only [Statement.map, value.map_id]
  | .ifElse test consequent alternate _ => by
    simp only [Statement.map, test.map_id, consequent.map_id, Statement.mapOption_id alternate, id]
  | .forLoop init test update body _ => by
    simp only [Statement.map, ForInit.mapOption_id init, Expr.mapOption_id test,
      Expr.mapOption_id update, body.map_id, id]
  | .whileLoop test body _ => by simp only [Statement.map, test.map_id, body.map_id, id]
  | .ret argument _ => by simp only [Statement.map, Expr.mapOption_id argument, id]
  | .empty _ => by simp only [Statement.map, id]

theorem Statement.mapAll_id : (sts : List (Statement σ)) → Statement.mapAll id sts = sts
  | [] => rfl
  | st :: sts => by simp only [Statement.mapAll, st.map_id, Statement.mapAll_id sts]

theorem Statement.mapOption_id : (st : Option (Statement σ)) → Statement.mapOption id st = st
  | none => rfl
  | some st => by simp only [Statement.mapOption, st.map_id]

theorem VariableDeclaration.map_id : (d : VariableDeclaration σ) → d.map id = d
  | ⟨_, declarations, _⟩ => by
    simp only [VariableDeclaration.map, VariableDeclarator.mapAll_id declarations, id]

theorem VariableDeclarator.mapAll_id :
    (ds : List (VariableDeclarator σ)) → VariableDeclarator.mapAll id ds = ds
  | [] => rfl
  | ⟨_, init, _⟩ :: ds => by
    simp only [VariableDeclarator.mapAll, VariableDeclarator.map, Ident.map,
      Expr.mapOption_id init, VariableDeclarator.mapAll_id ds, id]

theorem ForInit.mapOption_id : (init : Option (ForInit σ)) → ForInit.mapOption id init = init
  | none => rfl
  | some (.vars declaration) => by
    simp only [ForInit.mapOption, ForInit.map, declaration.map_id]
  | some (.expr value) => by simp only [ForInit.mapOption, ForInit.map, value.map_id]

theorem Class.map_id : (c : Class σ) → c.map id = c
  | ⟨_, superClass, body, _⟩ => by
    simp only [Class.map, Ident.map, Expr.mapOption_id superClass, body.map_id, id]

theorem ClassBody.map_id : (b : ClassBody σ) → b.map id = b
  | ⟨body, _⟩ => by simp only [ClassBody.map, MethodDefinition.mapAll_id body, id]

theorem MethodDefinition.mapAll_id :
    (ms : List (MethodDefinition σ)) → MethodDefinition.mapAll id ms = ms
  | [] => rfl
  | ⟨key, value, _, _, _, _⟩ :: ms => by
    simp only [MethodDefinition.mapAll, MethodDefinition.map, key.map_id, value.map_id,
      MethodDefinition.mapAll_id ms, id]

end

end

/-! ## One change after another -/

section
variable {σ σ' σ'' : Type} (f : σ → σ') (g : σ' → σ'')

mutual

theorem Expr.map_map : (e : Expr σ) → (e.map f).map g = e.map (g ∘ f)
  | .literal _ => rfl
  | .array elements _ => by simp only [Expr.map, Expr.mapSlots_mapSlots elements, Function.comp]
  | .object properties _ => by
    simp only [Expr.map, Property.mapAll_mapAll properties, Function.comp]
  | .function value => by simp only [Expr.map, Func.map_map value]
  | .template quasis expressions _ => by
    simp only [Expr.map, List.map_map, Expr.mapAll_mapAll expressions, Function.comp]
    rfl
  | .ident _ => rfl
  | .this _ => rfl
  | .super _ => rfl
  | .unary _ argument _ => by simp only [Expr.map, Expr.map_map argument, Function.comp]
  | .binary _ left right _ => by
    simp only [Expr.map, Expr.map_map left, Expr.map_map right, Function.comp]
  | .logical _ left right _ => by
    simp only [Expr.map, Expr.map_map left, Expr.map_map right, Function.comp]
  | .conditional test consequent alternate _ => by
    simp only [Expr.map, Expr.map_map test, Expr.map_map consequent, Expr.map_map alternate,
      Function.comp]
  | .assign _ left right _ => by
    simp only [Expr.map, Pattern.map_map left, Expr.map_map right, Function.comp]
  | .update _ _ argument _ => by simp only [Expr.map, Expr.map_map argument, Function.comp]
  | .await argument _ => by simp only [Expr.map, Expr.map_map argument, Function.comp]
  | .member object property _ _ => by
    simp only [Expr.map, Expr.map_map object, MemberProperty.map_map property, Function.comp]
  | .call callee arguments _ => by
    simp only [Expr.map, Expr.map_map callee, Expr.mapAll_mapAll arguments, Function.comp]
  | .new callee arguments _ => by
    simp only [Expr.map, Expr.map_map callee, Expr.mapAll_mapAll arguments, Function.comp]

theorem Expr.mapAll_mapAll :
    (es : List (Expr σ)) → Expr.mapAll g (Expr.mapAll f es) = Expr.mapAll (g ∘ f) es
  | [] => rfl
  | e :: es => by simp only [Expr.mapAll, Expr.map_map e, Expr.mapAll_mapAll es]

theorem Expr.mapOption_mapOption :
    (e : Option (Expr σ)) → Expr.mapOption g (Expr.mapOption f e) = Expr.mapOption (g ∘ f) e
  | none => rfl
  | some e => by simp only [Expr.mapOption, Expr.map_map e]

theorem Expr.mapSlots_mapSlots : (es : List (Option (Expr σ))) →
    Expr.mapSlots g (Expr.mapSlots f es) = Expr.mapSlots (g ∘ f) es
  | [] => rfl
  | e :: es => by
    simp only [Expr.mapSlots, Expr.mapOption_mapOption e, Expr.mapSlots_mapSlots es]

theorem MemberProperty.map_map :
    (p : MemberProperty σ) → (p.map f).map g = p.map (g ∘ f)
  | .ident _ => rfl
  | .expr value => by simp only [MemberProperty.map, Expr.map_map value]

theorem PropertyKey.map_map : (key : PropertyKey σ) → (key.map f).map g = key.map (g ∘ f)
  | .ident _ => rfl
  | .literal _ => rfl
  | .computed value => by simp only [PropertyKey.map, Expr.map_map value]

theorem Property.mapAll_mapAll : (ps : List (Property σ)) →
    Property.mapAll g (Property.mapAll f ps) = Property.mapAll (g ∘ f) ps
  | [] => rfl
  | ⟨key, value, _, _, _, _, _⟩ :: ps => by
    simp only [Property.mapAll, Property.map, PropertyKey.map_map key, Expr.map_map value,
      Property.mapAll_mapAll ps, Function.comp]

theorem Pattern.map_map : (p : Pattern σ) → (p.map f).map g = p.map (g ∘ f)
  | .ident _ => rfl
  | .member object property _ _ => by
    simp only [Pattern.map, Expr.map_map object, MemberProperty.map_map property, Function.comp]
  | .array elements _ => by
    simp only [Pattern.map, Pattern.mapSlots_mapSlots elements, Function.comp]
  | .object properties _ => by
    simp only [Pattern.map, PatternProperty.mapAll_mapAll properties, Function.comp]

theorem Pattern.mapSlots_mapSlots : (ps : List (Option (Pattern σ))) →
    Pattern.mapSlots g (Pattern.mapSlots f ps) = Pattern.mapSlots (g ∘ f) ps
  | [] => rfl
  | none :: ps => by
    simp only [Pattern.mapSlots, Pattern.mapOption, Pattern.mapSlots_mapSlots ps]
  | some p :: ps => by
    simp only [Pattern.mapSlots, Pattern.mapOption, Pattern.map_map p,
      Pattern.mapSlots_mapSlots ps]

theorem PatternProperty.mapAll_mapAll : (ps : List (PatternProperty σ)) →
    PatternProperty.mapAll g (PatternProperty.mapAll f ps) = PatternProperty.mapAll (g ∘ f) ps
  | [] => rfl
  | ⟨key, value, _, _, _⟩ :: ps => by
    simp only [PatternProperty.mapAll, PatternProperty.map, PropertyKey.map_map key,
      Pattern.map_map value, PatternProperty.mapAll_mapAll ps, Function.comp]

theorem Func.map_map : (d : Func σ) → (d.map f).map g = d.map (g ∘ f)
  | ⟨_, _, body, _, _, _⟩ => by
    simp only [Func.map, Option.map_map, List.map_map, Block.map_map body, Function.comp]
    rfl

theorem Block.map_map : (b : Block σ) → (b.map f).map g = b.map (g ∘ f)
  | ⟨body, _⟩ => by simp only [Block.map, Statement.mapAll_mapAll body, Function.comp]

theorem Statement.map_map : (st : Statement σ) → (st.map f).map g = st.map (g ∘ f)
  | .vars declaration => by simp only [Statement.map, VariableDeclaration.map_map declaration]
  | .function declaration => by simp only [Statement.map, Func.map_map declaration]
  | .classDeclaration declaration => by simp only [Statement.map, Class.map_map declaration]
  | .expression value _ => by simp only [Statement.map, Expr.map_map value, Function.comp]
  | .block value => by simp only [Statement.map, Block.map_map value]
  | .ifElse test consequent alternate _ => by
    simp only [Statement.map, Expr.map_map test, Statement.map_map consequent,
      Statement.mapOption_mapOption alternate, Function.comp]
  | .forLoop init test update body _ => by
    simp only [Statement.map, ForInit.mapOption_mapOption init, Expr.mapOption_mapOption test,
      Expr.mapOption_mapOption update, Statement.map_map body, Function.comp]
  | .whileLoop test body _ => by
    simp only [Statement.map, Expr.map_map test, Statement.map_map body, Function.comp]
  | .ret argument _ => by
    simp only [Statement.map, Expr.mapOption_mapOption argument, Function.comp]
  | .empty _ => rfl

theorem Statement.mapAll_mapAll : (sts : List (Statement σ)) →
    Statement.mapAll g (Statement.mapAll f sts) = Statement.mapAll (g ∘ f) sts
  | [] => rfl
  | st :: sts => by
    simp only [Statement.mapAll, Statement.map_map st, Statement.mapAll_mapAll sts]

theorem Statement.mapOption_mapOption : (st : Option (Statement σ)) →
    Statement.mapOption g (Statement.mapOption f st) = Statement.mapOption (g ∘ f) st
  | none => rfl
  | some st => by simp only [Statement.mapOption, Statement.map_map st]

theorem VariableDeclaration.map_map :
    (d : VariableDeclaration σ) → (d.map f).map g = d.map (g ∘ f)
  | ⟨_, declarations, _⟩ => by
    simp only [VariableDeclaration.map, VariableDeclarator.mapAll_mapAll declarations,
      Function.comp]

theorem VariableDeclarator.mapAll_mapAll : (ds : List (VariableDeclarator σ)) →
    VariableDeclarator.mapAll g (VariableDeclarator.mapAll f ds) =
      VariableDeclarator.mapAll (g ∘ f) ds
  | [] => rfl
  | ⟨_, init, _⟩ :: ds => by
    simp only [VariableDeclarator.mapAll, VariableDeclarator.map, Expr.mapOption_mapOption init,
      VariableDeclarator.mapAll_mapAll ds, Ident.map, Function.comp]

theorem ForInit.mapOption_mapOption : (init : Option (ForInit σ)) →
    ForInit.mapOption g (ForInit.mapOption f init) = ForInit.mapOption (g ∘ f) init
  | none => rfl
  | some (.vars declaration) => by
    simp only [ForInit.mapOption, ForInit.map, VariableDeclaration.map_map declaration]
  | some (.expr value) => by simp only [ForInit.mapOption, ForInit.map, Expr.map_map value]

theorem Class.map_map : (c : Class σ) → (c.map f).map g = c.map (g ∘ f)
  | ⟨_, superClass, body, _⟩ => by
    simp only [Class.map, Expr.mapOption_mapOption superClass, ClassBody.map_map body, Ident.map,
      Function.comp]

theorem ClassBody.map_map : (b : ClassBody σ) → (b.map f).map g = b.map (g ∘ f)
  | ⟨body, _⟩ => by
    simp only [ClassBody.map, MethodDefinition.mapAll_mapAll body, Function.comp]

theorem MethodDefinition.mapAll_mapAll : (ms : List (MethodDefinition σ)) →
    MethodDefinition.mapAll g (MethodDefinition.mapAll f ms) = MethodDefinition.mapAll (g ∘ f) ms
  | [] => rfl
  | ⟨key, value, _, _, _, _⟩ :: ms => by
    simp only [MethodDefinition.mapAll, MethodDefinition.map, PropertyKey.map_map key,
      Func.map_map value, MethodDefinition.mapAll_mapAll ms, Function.comp]

end

end

/-! ## Patterns -/

/-- What comes of reading a node as a pattern, under a change of annotation. -/
def mapReading {σ σ' α β : Type} (g : σ → σ') (f : α → β) : Except σ α → Except σ' β
  | .ok a => .ok (f a)
  | .error s => .error (g s)

theorem mapReading_bind {σ σ' α β α' β' : Type} {g : σ → σ'} {f : α → α'} {f' : β → β'}
    {x : Except σ α} {k : α → Except σ β} {k' : α' → Except σ' β'}
    (h : ∀ a, k' (f a) = mapReading g f' (k a)) :
    (mapReading g f x >>= k') = mapReading g f' (x >>= k) := by
  cases x with
  | ok a => exact h a
  | error s => rfl

section
variable {σ σ' : Type} (g : σ → σ')

mutual

theorem Expr.asPattern_map : (e : Expr σ) →
    (e.map g).asPattern = mapReading g (Pattern.map g) e.asPattern
  | .ident _ => by simp only [Expr.map, Expr.asPattern, mapReading, Pattern.map]
  | .member .. => by simp only [Expr.map, Expr.asPattern, mapReading, Pattern.map]
  | .array elements s => by
    simp only [Expr.map, Expr.asPattern, Expr.slotsAsPatterns_map elements]
    exact mapReading_bind fun ps => by simp only [mapReading, Pattern.map]
  | .object properties s => by
    simp only [Expr.map, Expr.asPattern, Property.allAsPatterns_map properties]
    exact mapReading_bind fun ps => by simp only [mapReading, Pattern.map]
  | .literal _ | .function ⟨_, _, _, _, _, _⟩ | .template .. | .this _ | .super _ | .unary ..
  | .binary .. | .logical .. | .conditional .. | .assign .. | .update .. | .await .. | .call ..
  | .new .. => by simp only [Expr.map, Expr.asPattern, mapReading, Literal.map, Func.map]

theorem Expr.slotsAsPatterns_map : (slots : List (Option (Expr σ))) →
    Expr.slotsAsPatterns (Expr.mapSlots g slots) =
      mapReading g (Pattern.mapSlots g) (Expr.slotsAsPatterns slots)
  | [] => by simp only [Expr.mapSlots, Expr.slotsAsPatterns, mapReading, Pattern.mapSlots]
  | slot :: slots => by
    have hslot : Expr.slotAsPattern (Expr.mapOption g slot) =
        mapReading g (Pattern.mapOption g) (Expr.slotAsPattern slot) := by
      cases slot with
      | none => simp only [Expr.mapOption, Expr.slotAsPattern, mapReading, Pattern.mapOption]
      | some e =>
        simp only [Expr.mapOption, Expr.slotAsPattern, Expr.asPattern_map e]
        exact mapReading_bind fun p => by simp only [mapReading, Pattern.mapOption]
    simp only [Expr.mapSlots, Expr.slotsAsPatterns, hslot, Expr.slotsAsPatterns_map slots]
    refine mapReading_bind fun p => mapReading_bind fun ps => ?_
    simp only [mapReading, Pattern.mapSlots]

theorem Property.allAsPatterns_map : (ps : List (Property σ)) →
    Property.allAsPatterns (Property.mapAll g ps) =
      mapReading g (PatternProperty.mapAll g) (Property.allAsPatterns ps)
  | [] => by
    simp only [Property.mapAll, Property.allAsPatterns, mapReading, PatternProperty.mapAll]
  | ⟨key, value, kind, computed, shorthand, method, s⟩ :: ps => by
    have hp : (Property.map g ⟨key, value, kind, computed, shorthand, method, s⟩).asPattern =
        mapReading g (PatternProperty.map g)
          (Property.asPattern ⟨key, value, kind, computed, shorthand, method, s⟩) := by
      simp only [Property.map, Property.asPattern, Expr.asPattern_map value]
      split
      · rfl
      · exact mapReading_bind fun p => by simp only [mapReading, PatternProperty.map]
    simp only [Property.mapAll, Property.allAsPatterns, hp, Property.allAsPatterns_map ps]
    refine mapReading_bind fun p => mapReading_bind fun ps => ?_
    simp only [mapReading, PatternProperty.mapAll]

end

end

end JsSyntax
