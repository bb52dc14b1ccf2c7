import JavaAnalysis.Proofs.Layout.Fits

/-!
# Sites

A site is a part of a file that matters beyond its place in the tree: what declares or uses a name,
and the lists in angle brackets, where operators are cut. The sites of shapes stand in the order in
which their nodes are made.
-/

set_option autoImplicit false
set_option linter.dupNamespace false

namespace JavaAnalysis

/-- What a part of a file is there for; offsets are those at which names start. -/
inductive SiteRole where
  | declares (offset : Nat)
  | uses (offset : Nat)
  /-- It is a list in angle brackets. -/
  | encloses
  /-- It is a declaration of variables that has none, and becomes no node. -/
  | vacant
deriving DecidableEq, Repr, Inhabited

/-- A part of a file that becomes one node. -/
structure Site where
  kind : NodeKind
  range : TextRange
  /-- The token behind the range belongs to the node, and is of this kind. -/
  separator : Option TokenKind
  role : SiteRole
  /-- It is among the parts that the outline of the file has. -/
  outlined : Bool
deriving DecidableEq, Repr, Inhabited

namespace Site

def declaration (kind : NodeKind) (range : TextRange) (offset : Nat) : Site :=
  ⟨kind, range, none, .declares offset, true⟩

def enclosing (kind : NodeKind) (range : TextRange) : Site := ⟨kind, range, none, .encloses, true⟩

/-- An identifier that uses what the name that starts at an offset is bound to. -/
def reference (range : TextRange) (offset : Nat) : Site := ⟨.identifier, range, none, .uses offset, true⟩

/-- A declaration without the variables that start at the offset. -/
def vacancy (start : Nat) : Site := ⟨.variableDecl, .empty start, none, .vacant, true⟩

/-- The variable between its start and the end of its initial value. -/
def fragment (range : TextRange) (separator : Option TokenKind) (offset : Nat) : Site :=
  ⟨.variableDecl, range, separator, .declares offset, true⟩

/-- The site where the outline passes it over. -/
def hide (site : Site) : Site := { site with outlined := false }

/-- The offset of the name that is declared. -/
def declared? (site : Site) : Option Nat :=
  match site.role with
  | .declares offset => some offset
  | _ => none

/-- The offset of the name that is used. -/
def used? (site : Site) : Option Nat :=
  match site.role with
  | .uses offset => some offset
  | _ => none

/-- The offset of the name that is declared or used. -/
def key? (site : Site) : Option Nat :=
  match site.role with
  | .declares offset => some offset
  | .uses offset => some offset
  | .encloses => none
  | .vacant => none

/-- A name stands at the site. -/
def isNamed (site : Site) : Bool := site.key?.isSome

/-- Where the list in angle brackets ends. -/
def closer? (site : Site) : Option Nat :=
  match site.role with
  | .encloses => some site.range.stop
  | _ => none

theorem isNamed_hide : isNamed ∘ hide = isNamed := rfl

theorem role_of_declared? {site : Site} {offset : Nat} (h : site.declared? = some offset) :
    site.role = .declares offset := by
  unfold declared? at h
  split at h
  · rename_i hrole
    exact hrole.trans (congrArg _ (Option.some.inj h))
  · cases h

theorem role_of_used? {site : Site} {offset : Nat} (h : site.used? = some offset) :
    site.role = .uses offset := by
  unfold used? at h
  split at h
  · rename_i hrole
    exact hrole.trans (congrArg _ (Option.some.inj h))
  · cases h

theorem key?_of_declared? {site : Site} {offset : Nat} (h : site.declared? = some offset) :
    site.key? = some offset := by
  rw [key?, role_of_declared? h]

theorem key?_of_used? {site : Site} {offset : Nat} (h : site.used? = some offset) :
    site.key? = some offset := by
  rw [key?, role_of_used? h]

theorem used?_of_declared? {site : Site} {offset : Nat} (h : site.declared? = some offset) :
    site.used? = none := by
  rw [used?, role_of_declared? h]

end Site

/-- The sites at which no name stands. -/
def nameless (sites : List Site) : List Site := sites.filter fun site => !site.isNamed

/-- Where no variable is declared, no name counts. -/
theorem filter_vacancy (sites : List Site) (start : Nat) :
    (nameless sites ++ [Site.vacancy start]).filter Site.isNamed = [] := by
  have hvacancy : (Site.vacancy start).isNamed = false := rfl
  simp [nameless, hvacancy]

/-- The nodes of lists in angle brackets. -/
def NodeKind.isAngled (kind : NodeKind) : Bool := kind == .typeArguments || kind == .typeParameters

/-- What separates a variable from what follows it. -/
def separatorOf (isLast terminated : Bool) : Option TokenKind :=
  if isLast then (if terminated then some .semicolon else none) else some .comma

/-- The site of a list in angle brackets, if the node is one. -/
def angledSites (kind : NodeKind) (range : TextRange) : List Site :=
  if kind.isAngled then [.enclosing kind range] else []

/-- The sites in front of a type; the outline passes over what stands in front of a pattern. -/
def leadingSites (kind : NodeKind) (sites : List Site) : List Site :=
  if kind = .pattern then sites.map Site.hide else sites

def NodeSpec.sites (spec : NodeSpec) : List Site :=
  angledSites spec.kind spec.range ++
    (spec.declares.map (Site.declaration spec.kind spec.range)).toList

mutual

def Shape.sites : Shape → List Site
  | .ident range use => (use.map (Site.reference range)).toList
  | .node spec children => shapeSites children ++ spec.sites
  | .typed spec before typeShape _ _ after =>
    leadingSites spec.kind (shapeSites before) ++ typeShape.sites ++ shapeSites after ++ spec.sites
  | .clause _ _ _ types => shapeSites types
  | .variables start terminated before typeShape _ fragments =>
    if fragments.isEmpty then nameless (shapeSites before ++ typeShape.sites) ++ [.vacancy start]
    else shapeSites before ++ typeShape.sites ++ variableSites terminated start fragments
  | .labeled _ _ body => shapeSites body
  | .jump kind range _ => angledSites kind range
  | .body inside => shapeSites inside

def shapeSites : List Shape → List Site
  | [] => []
  | s :: ss => s.sites ++ shapeSites ss

/-- The sites of variables, the first of which starts at `start`. -/
def variableSites (terminated : Bool) (start : Nat) : List FragmentShape → List Site
  | [] => []
  | .mk range name inside :: fragments =>
    shapeSites inside ++
      .fragment ⟨start, range.stop⟩ (separatorOf fragments.isEmpty terminated) name.range.start ::
      variableSites terminated (nextStart range.stop fragments) fragments

end

@[simp]
theorem isAngled_eq_false {kind : NodeKind} (harguments : kind ≠ .typeArguments)
    (hparameters : kind ≠ .typeParameters) : kind.isAngled = false := by
  simp [NodeKind.isAngled, harguments, hparameters]

@[simp]
theorem angledSites_eq_nil {kind : NodeKind} (hkind : kind.isAngled = false) (range : TextRange) :
    angledSites kind range = [] := by
  simp [angledSites, hkind]

@[simp]
theorem shapeSites_nil : shapeSites [] = [] := by simp only [shapeSites]

@[simp]
theorem shapeSites_cons (s : Shape) (ss : List Shape) :
    shapeSites (s :: ss) = s.sites ++ shapeSites ss := by simp only [shapeSites]

@[simp]
theorem shapeSites_append (as bs : List Shape) :
    shapeSites (as ++ bs) = shapeSites as ++ shapeSites bs := by
  induction as with
  | nil => simp
  | cons s ss ih => simp [ih]

@[simp]
theorem sites_name (n : Ast.Ident) : (Shape.name n).sites = [] := by simp [Shape.name, Shape.sites]

@[simp]
theorem sites_nameUse (n : Ast.Ident) :
    (Shape.nameUse n).sites = [.reference n.range n.range.start] := by
  simp [Shape.nameUse, Shape.sites]

@[simp]
theorem sites_plain (kind : NodeKind) (range : TextRange) (children : List Shape) :
    (Shape.plain kind range children).sites = shapeSites children ++ angledSites kind range := by
  simp [Shape.plain, NodeSpec.plain, Shape.sites, NodeSpec.sites]

@[simp]
theorem sites_leaf (kind : NodeKind) (range : TextRange) :
    (Shape.leaf kind range).sites = angledSites kind range := by
  simp [Shape.leaf]

@[simp]
theorem sites_headed (kind : NodeKind) (range : TextRange) (word : TokenKind)
    (children : List Shape) :
    (Shape.headed kind range word children).sites =
      shapeSites children ++ angledSites kind range := by
  simp [Shape.headed, NodeSpec.headed, NodeSpec.plain, Shape.sites, NodeSpec.sites]

/-! ## Identifiers -/

/-- Names are used by identifiers only. -/
def UsedByIdentifiers (sites : List Site) : Prop :=
  ∀ site ∈ sites, ∀ offset, site.role = .uses offset → site.kind = .identifier

variable {as bs : List Site}

@[simp]
theorem usedByIdentifiers_nil : UsedByIdentifiers [] := by simp [UsedByIdentifiers]

@[simp]
theorem usedByIdentifiers_append :
    UsedByIdentifiers (as ++ bs) ↔ UsedByIdentifiers as ∧ UsedByIdentifiers bs :=
  List.forall_mem_append

@[simp]
theorem usedByIdentifiers_spec (spec : NodeSpec) : UsedByIdentifiers spec.sites := by
  intro site hsite offset hrole
  simp only [NodeSpec.sites, angledSites, List.mem_append, Option.mem_toList,
    Option.map_eq_some_iff] at hsite
  rcases hsite with hangled | ⟨name, -, rfl⟩
  · split at hangled
    · cases List.mem_singleton.1 hangled
      cases hrole
    · cases hangled
  · cases hrole

@[simp]
theorem usedByIdentifiers_leading (kind : NodeKind) :
    UsedByIdentifiers (leadingSites kind as) ↔ UsedByIdentifiers as := by
  unfold leadingSites
  split
  · exact List.forall_mem_map
  · exact Iff.rfl

theorem UsedByIdentifiers.nameless (h : UsedByIdentifiers as) : UsedByIdentifiers (nameless as) :=
  fun site hsite => h site (List.mem_filter.1 hsite).1

mutual

theorem Shape.usedByIdentifiers : ∀ s : Shape, UsedByIdentifiers s.sites
  | .ident range none => by simp [Shape.sites]
  | .ident range (some name) => by simp [Shape.sites, UsedByIdentifiers, Site.reference]
  | .node spec children => by simp [Shape.sites, shapes_usedByIdentifiers children]
  | .typed spec before typeShape _ _ after => by
    simp [Shape.sites, shapes_usedByIdentifiers before, typeShape.usedByIdentifiers,
      shapes_usedByIdentifiers after]
  | .clause _ _ _ types => by simpa [Shape.sites] using shapes_usedByIdentifiers types
  | .variables start terminated before typeShape _ fragments => by
    have hinside : UsedByIdentifiers (shapeSites before ++ typeShape.sites) :=
      usedByIdentifiers_append.2 ⟨shapes_usedByIdentifiers before, typeShape.usedByIdentifiers⟩
    simp only [Shape.sites]
    split
    · refine usedByIdentifiers_append.2 ⟨hinside.nameless, ?_⟩
      simp [UsedByIdentifiers, Site.vacancy]
    · exact usedByIdentifiers_append.2
        ⟨hinside, variables_usedByIdentifiers fragments terminated start⟩
  | .labeled _ _ body => by simpa [Shape.sites] using shapes_usedByIdentifiers body
  | .jump kind range _ => by
    have hangled : UsedByIdentifiers (NodeSpec.plain kind range).sites := usedByIdentifiers_spec _
    simpa [Shape.sites, NodeSpec.sites, NodeSpec.plain] using hangled
  | .body inside => by simpa [Shape.sites] using shapes_usedByIdentifiers inside

theorem shapes_usedByIdentifiers : ∀ ss : List Shape, UsedByIdentifiers (shapeSites ss)
  | [] => by simp
  | s :: ss => by simp [s.usedByIdentifiers, shapes_usedByIdentifiers ss]

theorem variables_usedByIdentifiers : ∀ (fragments : List FragmentShape) (terminated : Bool)
    (start : Nat), UsedByIdentifiers (variableSites terminated start fragments)
  | [], _, _ => by simp [variableSites]
  | .mk _ _ inside :: fragments, _, _ => by
    simp only [variableSites, usedByIdentifiers_append]
    refine ⟨shapes_usedByIdentifiers inside, List.forall_mem_cons.2 ⟨nofun, ?_⟩⟩
    exact variables_usedByIdentifiers fragments _ _

end

end JavaAnalysis
