import JsSyntax.Proofs.RoundTrip.Classes
import JsSyntax.Proofs.RoundTrip.Runs

/-! # Modifiers neither steal nor lose a key

A member of a class or an object is parsed with the modifiers and the key that it is written with,
whatever words these are (`members_read`): a word in front of a key modifies it, and a word in front
of its parameters, or of a colon, is the key.
-/

set_option autoImplicit false

namespace JsSyntax

open Parse

/-! ## Members of objects -/

/-- A member of an object: a method or an accessor, or a key with a value behind a colon, whose
tokens and tree are given. -/
inductive ObjectMember where
  | method (m : Method)
  | keyed (key : MemberKey) (tokens : List Token) (value : Expr Unit)

namespace ObjectMember

def tokens : ObjectMember → List Token
  | .method m => m.tokens
  | .keyed key tokens _ => key.tokens ++ .mark ":" :: tokens

def property : ObjectMember → Property Unit
  | .method m => m.property
  | .keyed key _ value => key.withValue value

/-- With so much nesting left, the parts of the member are read, the value in front of `rest`. -/
def Reads (n : Nat) (rest : List Token) : ObjectMember → Prop
  | .method m => m.Reads n
  | .keyed key tokens value =>
    key.Reads n ∧ Once (level n).assignment tokens rest (·.erase = value)

variable {n : Nat} {rest : List Token}

theorem consumes : {m : ObjectMember} → m.Reads n rest →
    Consumes (Parse.property (level n)) m.tokens rest (·.erase = m.property)
  | .method _, h => Method.property_consumes h
  | .keyed _ _ _, h => MemberKey.property_consumes h.1 h.2

theorem opens : (m : ObjectMember) → Opens "" m.tokens
  | .method _ => Method.tokens_opens (by decide)
  | .keyed key _ _ => key.opens (by decide) ""

end ObjectMember

namespace Parse

variable {n : Nat} {rest : List Token}

theorem definition_everywhere {m : ClassMember} (h : m.method.Reads n) :
    Everywhere (methodDefinition (level n)) m.tokens rest (·.erase = m.definition) :=
  Once.everywhere MethodDefinition.map
    (Alignment.methodDefinition_follows (Alignment.level_deepens (.inl rfl)))
    (Method.definition_consumes h m.static).once

theorem property_everywhere {m : ObjectMember} (h : m.Reads n rest) :
    Everywhere (property (level n)) m.tokens rest (·.erase = m.property) :=
  Once.everywhere Property.map
    (Alignment.property_follows (Alignment.level_deepens (.inl rfl))) (ObjectMember.consumes h).once

/-! ## Programs -/

/-- A class with these members. -/
def classTokens (name : Name) (ms : List ClassMember) : List Token :=
  .keyword "class" :: .word .identifier name.text :: .mark "\x7b" ::
    (ms.flatMap ClassMember.tokens ++ [.mark "\x7d"])

theorem class_parse {name : Name} {ms : List ClassMember} (h : ∀ m ∈ ms, m.method.Reads n)
    {source : String}
    (hsource : (startOf source).rest.map Token.phrase = (classTokens name ms).map Token.phrase) :
    (parseWith (n + 1) source).errors = [] ∧
      (parseWith (n + 1) source).body.map Statement.erase = [.classDeclaration
        ⟨⟨name.text, ()⟩, none, ⟨ms.map ClassMember.definition, ()⟩, ()⟩] := by
  refine parseWith_of_statement (List.cons_ne_nil _ _) ?_ hsource
  refine (classStatement_consumes (class_consumes
    (classBody_consumes (ClassMember.items_take ms h)))).mono ?_
  rintro _ ⟨⟨⟨text, idSpan⟩, superClass, ⟨body, bodySpan⟩, span⟩, rfl, hname, hsuper, members,
    hmembers, hbody⟩
  simp only at hname hsuper hbody
  subst hname hsuper hbody
  have hall : (members.filterMap id).map (MethodDefinition.map fun _ => ()) =
      ms.map ClassMember.definition := hmembers
  simpa [Statement.erase, Statement.map, Class.map, ClassBody.map, Expr.mapOption, Ident.map]
    using hall

/-- A statement that returns an object with this member. -/
def objectTokens (m : ObjectMember) : List Token :=
  .keyword "return" :: .mark "\x7b" :: (m.tokens ++ [.mark "\x7d", .mark ";"])

theorem object_parse {m : ObjectMember} (h : m.Reads n [.mark "\x7d", .mark ";"])
    {source : String}
    (hsource : (startOf source).rest.map Token.phrase = (objectTokens m).map Token.phrase) :
    (parseWith (n + 2) source).errors = [] ∧
      (parseWith (n + 2) source).body.map Statement.erase =
        [.ret (some (.object [m.property] ())) ()] := by
  obtain ⟨x, v, hv, hclose, -⟩ := m.opens.exists_cons
  have hproperty := ObjectMember.consumes h
  rw [hv] at hproperty
  have hreturn := returnStatement_consumes rfl (object_consumes hclose hproperty (by decide))
  have htokens : objectTokens m =
      .keyword "return" :: (.mark "\x7b" :: (x :: v ++ [.mark "\x7d"]) ++ [.mark ";"]) := by
    simp [objectTokens, hv]
  rw [htokens] at hsource
  refine parseWith_of_statement (List.cons_ne_nil _ _) (hreturn.mono ?_) hsource
  rintro _ ⟨e, span, rfl, he⟩
  exact congrArg (fun e => Statement.ret (some e) ()) he

end Parse

/-- A member of a class or of an object, wherever it stands, is read with exactly the modifiers, the
key, the parameters and the block or value that it is written with, as long as these are read with
the nesting that is left. So it is in a program that is a class, and in one that returns an
object. -/
theorem members_read (n : Nat) :
    (∀ (m : ClassMember) (rest : List Token), m.method.Reads n →
      Everywhere (methodDefinition (level n)) m.tokens rest (·.erase = m.definition)) ∧
    (∀ (m : ObjectMember) (rest : List Token), m.Reads n rest →
      Everywhere (property (level n)) m.tokens rest (·.erase = m.property)) ∧
    (∀ (name : Name) (ms : List ClassMember), (∀ m ∈ ms, m.method.Reads n) → ∀ source : String,
      (startOf source).rest.map Token.phrase = (classTokens name ms).map Token.phrase →
      (parseWith (n + 1) source).errors = [] ∧
        (parseWith (n + 1) source).body.map Statement.erase = [.classDeclaration
          ⟨⟨name.text, ()⟩, none, ⟨ms.map ClassMember.definition, ()⟩, ()⟩]) ∧
    ∀ m : ObjectMember, m.Reads n [.mark "\x7d", .mark ";"] → ∀ source : String,
      (startOf source).rest.map Token.phrase = (objectTokens m).map Token.phrase →
      (parseWith (n + 2) source).errors = [] ∧
        (parseWith (n + 2) source).body.map Statement.erase =
          [.ret (some (.object [m.property] ())) ()] :=
  ⟨fun _ _ => definition_everywhere, fun _ _ => property_everywhere,
    fun _ _ h _ => class_parse h, fun _ h _ => object_parse h⟩

/-- A word that is checked to be one. -/
def MemberName.ofWord (text : String)
    (h : text.toList.head?.any isWordStart ∧ text.toList.all isWordPart) : MemberName :=
  ⟨text, h.1, List.all_eq_true.1 h.2⟩

/-- A getter of the name of its own modifier, and a method with all modifiers and one of them as its
name. -/
theorem members_read_modifiers :
    (parse "class C \x7b get get() \x7b\x7d static async *static(a, b) \x7b\x7d \x7d").errors = [] ∧
    (parse "class C \x7b get get() \x7b\x7d static async *static(a, b) \x7b\x7d \x7d").body.map
      Statement.erase = [.classDeclaration ⟨⟨"C", ()⟩, none, ⟨[
        ⟨.ident ⟨"get", ()⟩, ⟨none, [], ⟨[], ()⟩, false, false, ()⟩, .get, false, false, ()⟩,
        ⟨.ident ⟨"static", ()⟩, ⟨none, [⟨"a", ()⟩, ⟨"b", ()⟩], ⟨[], ()⟩, true, true, ()⟩, .method,
          false, true, ()⟩], ()⟩, ()⟩] := by
  let empty : Block Unit := ⟨[], ()⟩
  have hblock : Once (block (level 63)) [.mark "\x7b", .mark "\x7d"] [] (·.erase = empty) :=
    ⟨⟨none, [.mark "\x7b", .mark "\x7d"], default, []⟩, _, _, rfl, rfl, rfl, rfl⟩
  let getter : ClassMember := ⟨false, .accessor true, .word (.ofWord "get" (by decide)), [],
    [.mark "\x7b", .mark "\x7d"], empty⟩
  let a : Name := ⟨.ofWord "a" (by decide), by decide⟩
  let b : Name := ⟨.ofWord "b" (by decide), by decide⟩
  let method : ClassMember := ⟨true, .method true true, .word (.ofWord "static" (by decide)),
    [a, b], [.mark "\x7b", .mark "\x7d"], empty⟩
  have hread : ∀ m ∈ [getter, method], m.method.Reads 63 := by
    simp only [List.forall_mem_cons]
    exact ⟨⟨trivial, hblock⟩, ⟨trivial, hblock⟩, List.forall_mem_nil _⟩
  exact (members_read 63).2.2.1 ⟨.ofWord "C" (by decide), by decide⟩ [getter, method] hread _
    (by decide +kernel)

end JsSyntax
