import JsSyntax.Proofs.RoundTrip.Members

/-! # Classes and objects as they are written

The members of a class one after another, and a member of an object in its braces, are read as they
are written, and so are the statements that they stand in.
-/

set_option autoImplicit false

namespace JsSyntax

open Parse

namespace Parse

variable {β : Type} {d : Deeper} {u v rest : List Token} {x : Token}

theorem Consumes.acceptWord_yes {word : String} {f : Bool → ParseM β} {Q : β → Prop}
    (hx : IsWord word x) (h : Consumes (f true) u rest Q) :
    Consumes (acceptWord word >>= f) (x :: u) rest Q :=
  .cons (fun hs => Parse.acceptWord_yes hs hx) h

theorem Consumes.acceptWord_no {word : String} {f : Bool → ParseM β} {Q : β → Prop}
    (hx : ¬ IsWord word x) (h : Consumes (f false) (x :: u) rest Q) :
    Consumes (acceptWord word >>= f) (x :: u) rest Q :=
  .skip (fun hcurrent => Parse.acceptWord_no (hcurrent ▸ hx)) h

theorem Consumes.isFunctionNext_no {f : Bool → ParseM β} {Q : β → Prop}
    (hfunction : x.isKeyword "function" = false) (hasync : x.isKeyword "async" = false)
    (h : Consumes (f false) (x :: u) rest Q) :
    Consumes (isFunctionNext >>= f) (x :: u) rest Q := by
  refine .skip (a := false) (fun {s} hcurrent => ?_) h
  rw [← bind_pure isFunctionNext, isFunctionNext_bind, hcurrent, hfunction, hasync]
  rfl

/-! ## Classes -/

/-- The next member of a class, or a semicolon between members. -/
def classItem (d : Deeper) : ParseM (Item (Option (MethodDefinition Span))) :=
  upTo "\x7d" do
    if ← acceptMark ";" then return .more none else return .more (some (← methodDefinition d))

theorem classBody_consumes {P : List (Option (MethodDefinition Span)) → Prop}
    (h : TakesItems (classItem d) u (· = .mark "\x7d") P) :
    Consumes (classBody d) (.mark "\x7b" :: (u ++ [.mark "\x7d"])) rest
      (fun b => ∃ ms, P ms ∧ b.body = ms.filterMap id) := by
  refine .peek fun _ => .require rfl (h.takes.bind_consumes rfl fun ms hms => ?_)
  exact .require rfl (.spanFrom fun span => .pure ⟨ms, hms, rfl⟩)

theorem Consumes.identifier {place : NamePlace} {f : Ident Span → ParseM β} {Q : β → Prop}
    (hx : x.kind = .identifier) (h : Consumes (f ⟨x.value, x.span⟩) u rest Q) :
    Consumes (Parse.identifier place >>= f) (x :: u) rest Q := by
  refine .cons (fun {s} rest hs => ?_) h
  have hcurrent : s.current = x := by simp [State.current, hs]
  rw [Parse.identifier, peek_bind, hcurrent, if_pos hx, bind_of_ok (advance_of_rest hs)]
  rfl

/-- A class that extends nothing. -/
theorem class_consumes {name : String} {P : ClassBody Span → Prop}
    (h : Consumes (classBody d) (.mark "\x7b" :: u) rest P) :
    Consumes (classDeclaration d) (.keyword "class" :: .word .identifier name :: .mark "\x7b" :: u)
      rest (fun c => c.id.name = name ∧ c.superClass = none ∧ P c.body) := by
  refine .peek fun _ => .discard_advance (.identifier rfl ?_)
  refine .acceptWord_no (fun hword => ?_) ?_
  · rcases hword.1 with hk | hk <;> cases hk
  · refine .skip (a := none) (fun _ => rfl) (.bind_nil h fun body hbody => ?_)
    exact .spanFrom fun span => .pure ⟨rfl, rfl, hbody⟩

/-- A class and what it extends. -/
theorem heir_consumes {name : String} {P : ClassBody Span → Prop} {Q : Expr Span → Prop}
    (hv : Takes (chain d) v (· = .mark "\x7b") Q)
    (h : Consumes (classBody d) (.mark "\x7b" :: u) rest P) :
    Consumes (classDeclaration d)
      (.keyword "class" :: .word .identifier name :: .name "extends" :: (v ++ .mark "\x7b" :: u))
      rest (fun c => c.id.name = name ∧ (∃ e ∈ c.superClass, Q e) ∧ P c.body) := by
  refine .peek fun _ => .discard_advance (.identifier rfl ?_)
  refine .acceptWord_yes ⟨by decide, rfl⟩ ?_
  have hsuper : Takes (some <$> chain d) v (· = .mark "\x7b") (fun c => ∃ e ∈ c, Q e) :=
    hv.map fun e he => ⟨e, rfl, he⟩
  refine hsuper.bind_consumes rfl fun superClass hsuperClass => ?_
  exact .bind_nil h fun body hbody => .spanFrom fun span => .pure ⟨rfl, hsuperClass, hbody⟩

/-! ## Objects -/

/-- One member in braces. -/
theorem objectLiteral_consumes {P : Property Span → Prop} (hx : x.isPunctuation "\x7d" = false)
    (h : Consumes (property d) (x :: u) (.mark "\x7d" :: rest) P) :
    Consumes (objectLiteral d) (.mark "\x7b" :: (x :: u ++ [.mark "\x7d"])) rest
      (fun e => ∃ p span, e = .object [p] span ∧ P p) := by
  have hitem : Consumes (upTo "\x7d" (commaItem (property d))) (x :: u) (.mark "\x7d" :: rest)
      (fun item => ∃ p, item = .last p ∧ P p) :=
    .isMarkNext hx (.atEnd (h.commaItem_last rfl))
  refine .peek fun _ => .discard_advance (.bind hitem.collect_last fun ps hps => ?_)
  obtain ⟨p, rfl, hp⟩ := hps
  exact .require rfl (.spanFrom fun span => .pure ⟨p, span, rfl, hp⟩)

/-- An object with one member, as an expression. -/
theorem object_consumes {n : Nat} {p : Property Unit} {t : Token}
    (hx : x.isPunctuation "\x7d" = false)
    (h : Consumes (property (level n)) (x :: u) (.mark "\x7d" :: t :: rest) (·.erase = p))
    (ht : Precedence.assignment.stops t) :
    Consumes (level (n + 1)).assignment (.mark "\x7b" :: (x :: u ++ [.mark "\x7d"])) (t :: rest)
      (·.erase = .object [p] ()) := by
  refine consumes_of_primary rfl (unprefixed_of_kind (by decide) (by decide)) ?_ ht
  refine .peek_cons (.peek_cons ?_)
  rw [if_neg (by decide), if_neg (by decide)]
  refine (objectLiteral_consumes hx h).mono ?_
  rintro _ ⟨p, span, rfl, rfl⟩
  simp [Expr.erase, Expr.map, Property.erase]

/-! ## Statements -/

theorem classStatement_consumes {P : Class Span → Prop}
    (h : Consumes (classDeclaration d) (.keyword "class" :: u) rest P) :
    Consumes (statement d) (.keyword "class" :: u) rest
      (fun st => ∃ c, st = .classDeclaration c ∧ P c) := by
  refine .peek_cons (.emit (.acceptOneOf_no (by decide) ?_))
  refine .peek_cons (.isFunctionNext_no (by decide) (by decide) ?_)
  exact .bind_nil h fun c hc => .pure ⟨c, rfl, hc⟩

theorem returnStatement_consumes {Q : Expr Span → Prop} (hx : x.isPunctuation ";" = false)
    (h : Consumes d.assignment (x :: u) (.mark ";" :: rest) Q) :
    Consumes (statement d) (.keyword "return" :: (x :: u ++ [.mark ";"])) rest
      (fun st => ∃ e span, st = .ret (some e) span ∧ Q e) := by
  refine .peek_cons (.emit (.acceptOneOf_no (by decide) ?_))
  refine .peek_cons (.isFunctionNext_no (by decide) (by decide) ?_)
  refine .peek fun _ => .discard_advance ?_
  have hargument : Consumes (optionalBefore d ";") (x :: u) (.mark ";" :: rest)
      (fun a => ∃ e ∈ a, Q e) := .isMarkNext hx (h.map fun e he => ⟨e, rfl, he⟩)
  refine .bind hargument fun a ha => .require rfl (.spanFrom fun span => .pure ?_)
  obtain ⟨e, rfl, he⟩ := ha
  exact ⟨e, span, rfl, he⟩

end Parse

/-! ## Members -/

/-- A method as a member of a class. -/
structure ClassMember where
  static : Bool
  method : Method

namespace ClassMember

def tokens (m : ClassMember) : List Token := modifier m.static "static" ++ m.method.tokens

def definition (m : ClassMember) : MethodDefinition Unit := m.method.definition m.static

variable {n : Nat} {rest : List Token}

theorem opens (m : ClassMember) : Opens "" m.tokens :=
  .modifier (Method.tokens_opens (by decide)) (by decide) (by decide)

/-- The members of a class one after another. -/
theorem items_take : (ms : List ClassMember) → (∀ m ∈ ms, m.method.Reads n) →
    TakesItems (classItem (level n)) (ms.flatMap tokens) (· = .mark "\x7d")
      (fun as => (as.filterMap id).map MethodDefinition.erase = ms.map definition)
  | [], _ => by
    refine .stop (.isMarkNext (b := true) ?_ (.pure ⟨rfl, rfl⟩))
    rintro t rfl
    rfl
  | m :: ms, h => by
    obtain ⟨hm, hms⟩ := List.forall_mem_cons.1 h
    obtain ⟨x, v, hv, hclose, hsemicolon⟩ := m.opens.exists_cons
    have hstep : Takes (classItem (level n)) m.tokens Anything (fun item => ∃ a, item = .more a ∧
        ∀ as, (as.filterMap id).map MethodDefinition.erase = ms.map definition →
          ((a :: as).filterMap id).map MethodDefinition.erase = (m :: ms).map definition) := by
      intro s t rest hs _
      have hmember : Consumes (methodDefinition (level n)) m.tokens (t :: rest)
          (·.erase = m.definition) := Method.definition_consumes hm m.static
      rw [hv] at hmember hs
      refine Consumes.isMarkNext hclose (.atEnd (.accept_no hsemicolon ?_)) hs
      refine hmember.bind_nil fun a ha => .pure ⟨some a, rfl, fun as has => ?_⟩
      simpa [ha] using has
    exact .more (by simp [hv]) hstep (fun _ _ => trivial) (items_take ms hms)

end ClassMember

end JsSyntax
