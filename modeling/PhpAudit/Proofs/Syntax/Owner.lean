import PhpAudit.Proofs.Syntax.Walk
import PhpAudit.Syntax.Query

/-!
# Methods of an owner

The first declaration of a name cuts the listing of a forest in three: what comes before it, what is
inside it, and what comes behind. The methods that are asked for by the name of their owner are those
of the middle part, and so a block of all methods (`methodDeclarations_contiguous`). Of other
declarations of the name, one that is inside the first adds nothing, and one that is not stands
behind it with all of its methods.
-/

namespace PhpAudit.Syntax

/-- A class, an interface, a trait or an enum of the given name. -/
def Node.Declares (node : Node) (owner : String) : Prop :=
  (∃ kind ∈ [NodeKind.classType, .interface, .trait, .enum], node.kind = kind.text) ∧
    node.name = some owner

/-- The methods among some nodes. -/
def methodsAmong (nodes : List Node) : List Node := nodes.filter fun node => node.isKind .method

theorem methodsAmong_append (front back : List Node) :
    methodsAmong (front ++ back) = methodsAmong front ++ methodsAmong back :=
  List.filter_append ..

/-- A declaration of the name with none before it, and the parts that it cuts the listing of a forest
into. -/
structure FirstDeclaration (nodes : Forest) (owner : String) (before : List Node)
    (declaration : Node) (after : List Node) : Prop where
  listing : Node.listingAll nodes = before ++ declaration.listing ++ after
  declares : declaration.Declares owner
  first : ∀ node ∈ before, ¬ node.Declares owner

/-- Another declaration of the name is inside the first one or behind it, with all that is inside of
it. -/
theorem FirstDeclaration.inside_or_behind {nodes : Forest} {owner : String}
    {before after : List Node} {declaration : Node}
    (h : FirstDeclaration nodes owner before declaration after) {early late : List Node}
    {other : Node} (hother : Node.listingAll nodes = early ++ other :: late)
    (hdeclares : other.Declares owner) :
    (∃ front back, early = before ++ front ∧
      declaration.listing = front ++ other.listing ++ back) ∨
    ∃ front back, early = before ++ declaration.listing ++ front ∧
      after = front ++ other.listing ++ back := by
  obtain ⟨rest, hrest⟩ := Node.exists_listing_append_of_all hother
  have hsplit := h.listing
  rw [hother, List.append_assoc] at hsplit
  -- the place of the other declaration is not before that of the first
  obtain ⟨front, rfl, hlate⟩ : ∃ front, early = before ++ front ∧
      declaration.listing ++ after = front ++ other :: late := by
    rcases List.append_eq_append_iff.mp hsplit with ⟨front, hbefore, hlate⟩ | ⟨front, hearly, hlate⟩
    · cases front with
      | nil => exact ⟨[], by rw [hbefore, List.append_nil, List.append_nil], hlate.symm⟩
      | cons first front =>
        obtain ⟨rfl, -⟩ := List.cons.inj hlate
        exact absurd hdeclares (h.first _ (by simp [hbefore]))
    · exact ⟨front, hearly, hlate⟩
  rcases List.append_eq_append_iff.mp hlate with ⟨gap, hfront, hafter⟩ | ⟨inner, hinside, hinner⟩
  · refine .inr ⟨gap, rest, by rw [hfront, List.append_assoc], ?_⟩
    rw [hafter, hrest, List.append_assoc]
  · cases inner with
    | nil =>
      rw [List.append_nil] at hinside
      refine .inr ⟨[], rest, by rw [hinside, List.append_nil], ?_⟩
      rw [List.nil_append, ← hrest, hinner, List.nil_append]
    | cons first inner =>
      obtain ⟨rfl, -⟩ := List.cons.inj hinner
      have hforest : Node.listingAll [declaration] = front ++ other :: inner := by
        rw [← walk_eq_listingAll, walk_singleton, hinside]
      obtain ⟨back, hback⟩ := Node.exists_listing_append_of_all hforest
      exact .inl ⟨front, back, rfl, by rw [hinside, hback, List.append_assoc]⟩

namespace Subject

/-- The nodes that a subject has at the top. -/
def nodes : Subject → Forest
  | forest nodes => nodes
  | stream nodes => nodes

theorem visit_eq_listingAll (subject : Subject) :
    subject.visit.1 = Node.listingAll subject.nodes := by
  cases subject <;> exact walk_eq_listingAll _

/-- What is looked for by the name of an owner. -/
theorem isClassLike_and_name_iff (node : Node) (owner : String) :
    (isClassLike node && node.name == some owner) = true ↔ node.Declares owner := by
  rw [Bool.and_eq_true, isClassLike, List.any_eq_true, beq_iff_eq, Node.Declares]
  simp only [Node.isKind, beq_iff_eq, NodeKind.classLike]

theorem methodDeclarations_none (subject : Subject) :
    subject.methodDeclarations none = methodsAmong (Node.listingAll subject.nodes) := by
  rw [← visit_eq_listingAll]
  rfl

/-- Without a declaration of the name there are no methods. Otherwise they are those of the first
one. -/
theorem methodDeclarations_some (subject : Subject) (owner : String) :
    ((∀ node ∈ Node.listingAll subject.nodes, ¬ node.Declares owner) ∧
      subject.methodDeclarations (some owner) = []) ∨
    ∃ before declaration after, FirstDeclaration subject.nodes owner before declaration after ∧
      subject.methodDeclarations (some owner) = methodsAmong declaration.listing := by
  rw [methodDeclarations]
  split
  next declaration hfound =>
    rw [findFirst?, visit_eq_listingAll, List.find?_eq_some_iff_append] at hfound
    obtain ⟨hdeclares, before, late, hlisting, hbefore⟩ := hfound
    obtain ⟨after, hafter⟩ := Node.exists_listing_append_of_all hlisting
    refine .inr ⟨before, declaration, after, ⟨?_, ?_, ?_⟩, ?_⟩
    · rw [hlisting, hafter, List.append_assoc]
    · exact (isClassLike_and_name_iff _ _).mp hdeclares
    · intro node hnode
      rw [← isClassLike_and_name_iff, Bool.not_eq_true, ← Bool.not_eq_true']
      exact hbefore node hnode
    · rw [← walk_singleton]
      rfl
  next hnone =>
    rw [findFirst?, visit_eq_listingAll, List.find?_eq_none] at hnone
    exact .inl ⟨fun node hnode => mt (isClassLike_and_name_iff _ _).mpr (hnone node hnode), rfl⟩

/-- **The methods of an owner are a block of all methods.** If there is a declaration of the name,
they are the methods inside the first one, in the order of the listing and nested ones included; the
others come before and behind them. Every declaration of the name is, with all that is inside of it,
inside the first one or behind it; the methods of one that is behind the first come behind theirs. -/
theorem methodDeclarations_contiguous (subject : Subject) (owner : String) :
    subject.methodDeclarations (some owner) <:+: subject.methodDeclarations none ∧
    (((∀ node ∈ Node.listingAll subject.nodes, ¬ node.Declares owner) ∧
        subject.methodDeclarations (some owner) = []) ∨
      ∃ before declaration after, FirstDeclaration subject.nodes owner before declaration after ∧
        subject.methodDeclarations (some owner) = methodsAmong declaration.listing ∧
        subject.methodDeclarations none = methodsAmong before ++
          subject.methodDeclarations (some owner) ++ methodsAmong after ∧
        ∀ early other late, Node.listingAll subject.nodes = early ++ other :: late →
          other.Declares owner →
          (∃ front back, early = before ++ front ∧
            declaration.listing = front ++ other.listing ++ back) ∨
          ∃ front back, early = before ++ declaration.listing ++ front ∧
            after = front ++ other.listing ++ back ∧
            methodsAmong after =
              methodsAmong front ++ methodsAmong other.listing ++ methodsAmong back) := by
  rcases subject.methodDeclarations_some owner with ⟨hnone, hempty⟩ | hsome
  · exact ⟨hempty ▸ List.nil_infix, .inl ⟨hnone, hempty⟩⟩
  · obtain ⟨before, declaration, after, hfirst, hmethods⟩ := hsome
    have hall : subject.methodDeclarations none = methodsAmong before ++
        subject.methodDeclarations (some owner) ++ methodsAmong after := by
      rw [methodDeclarations_none, hfirst.listing, methodsAmong_append, methodsAmong_append,
        hmethods]
    refine ⟨⟨_, _, hall.symm⟩, .inr ⟨before, declaration, after, hfirst, hmethods, hall, ?_⟩⟩
    intro early other late hother hdeclares
    refine (hfirst.inside_or_behind hother hdeclares).imp_right ?_
    rintro ⟨front, back, hearly, hafter⟩
    refine ⟨front, back, hearly, hafter, ?_⟩
    rw [hafter, methodsAmong_append, methodsAmong_append]

end Subject

end PhpAudit.Syntax
