import PinBoard.Proofs.Json.Build
import PinBoard.Proofs.Json.Spelling

/-!
# Only texts are read

A document that holds a whole tree and nothing else is a text of that tree. The walk that builds the
tree has at each moment some tokens behind it, and these are told by what is open and by what is
due; where the tree comes out whole they are the tokens of the tree.
-/

namespace PinBoard.Json

/-! ## What a walk has behind it -/

/-- The tokens of the items in front of another one. -/
def itemsBefore (latestFirst : List Tree) : List Token :=
  latestFirst.reverse.flatMap fun t => t.tokens ++ [.comma]

/-- The tokens of the members in front of another one. -/
def membersBefore (latestFirst : List (Text × Tree)) : List Token :=
  latestFirst.reverse.flatMap fun m => .string m.1 :: .colon :: m.2.tokens ++ [.comma]

/-- The tokens of an array or object up to the value that is due. -/
def Frame.tokens : Frame → List Token
  | .list items => .openList :: itemsBefore items
  | .object members key => .openObject :: membersBefore members ++ [.string key, .colon]

/-- The tokens of all that is open. -/
def openTokens (stack : List Frame) : List Token :=
  stack.reverse.flatMap Frame.tokens

/-- The tokens of what was begun behind them. -/
def Due.tokens : Due → List Token
  | .value => []
  | .firstItem => [.openList]
  | .firstKey => [.openObject]
  | .nextKey members => .openObject :: membersBefore members
  | .nextItem items => .openList :: itemsBefore items
  | .colon members key => .openObject :: membersBefore members ++ [.string key]
  | .after t => t.tokens

theorem openTokens_cons (frame : Frame) (stack : List Frame) :
    openTokens (frame :: stack) = openTokens stack ++ frame.tokens := by
  simp [openTokens]

theorem itemsBefore_cons (t : Tree) (items : List Tree) :
    itemsBefore (t :: items) = itemsBefore items ++ (t.tokens ++ [.comma]) := by
  simp [itemsBefore]

theorem membersBefore_cons (m : Text × Tree) (members : List (Text × Tree)) :
    membersBefore (m :: members) =
      membersBefore members ++ (.string m.1 :: .colon :: m.2.tokens ++ [.comma]) := by
  simp [membersBefore]

/-- The items of an array are those in front of the last one, and this one. -/
theorem tokens_itemsOf (items : List Tree) (t : Tree) (more : Items) :
    (itemsOf items (.cons t more)).tokens = itemsBefore items ++ (Items.cons t more).tokens := by
  induction items generalizing t more with
  | nil => rfl
  | cons item items ih =>
    show (itemsOf items (.cons item (.cons t more))).tokens = _
    rw [ih, Items.tokens_cons_cons, itemsBefore_cons]
    simp

/-- So it is with the members of an object. -/
theorem tokens_membersOf (members : List (Text × Tree)) (key : Text) (t : Tree) (more : Members) :
    (membersOf members (.cons key t more)).tokens =
      membersBefore members ++ (Members.cons key t more).tokens := by
  induction members generalizing key t more with
  | nil => rfl
  | cons member members ih =>
    show (membersOf members (.cons member.1 member.2 (.cons key t more))).tokens = _
    rw [ih, Members.tokens_cons_cons, membersBefore_cons]
    simp

/-! ## One step -/

section Unclosed

variable {token : Token} (stack : List Frame)

/-- Where an array may end a token that does not end it begins an item. -/
theorem buildStep_firstItem (h : token ≠ .closeList) :
    buildStep stack .firstItem token = valueStep (.list [] :: stack) token := by
  cases token <;> first | rfl | exact absurd rfl h

theorem buildStep_nextItem (items : List Tree) (h : token ≠ .closeList) :
    buildStep stack (.nextItem items) token = valueStep (.list items :: stack) token := by
  cases token <;> first | rfl | exact absurd rfl h

/-- Where an object may end a token that does not end it stands in the place of a key. -/
theorem buildStep_firstKey (h : token ≠ .closeObject) :
    buildStep stack .firstKey token = keyStep [] stack token := by
  cases token <;> first | rfl | exact absurd rfl h

theorem buildStep_nextKey (members : List (Text × Tree)) (h : token ≠ .closeObject) :
    buildStep stack (.nextKey members) token = keyStep members stack token := by
  cases token <;> first | rfl | exact absurd rfl h

end Unclosed

section Step

variable {stack next : List Frame} {due found : Due} {token : Token}

theorem tokens_of_valueStep (h : valueStep stack token = .on found next) :
    openTokens next ++ found.tokens = openTokens stack ++ [token] := by
  cases token with
  | openList | openObject | null | bool _ | number _ | string _ =>
    obtain ⟨rfl, rfl⟩ := Built.on.inj h
    simp only [Due.tokens, Tree.tokens]
  | closeList | closeObject | comma | colon | broken _ => exact Built.noConfusion h

theorem tokens_of_keyStep {members : List (Text × Tree)}
    (h : keyStep members stack token = .on found next) :
    openTokens next ++ found.tokens =
      openTokens stack ++ (.openObject :: membersBefore members) ++ [token] := by
  cases token with
  | string key =>
    obtain ⟨rfl, rfl⟩ := Built.on.inj h
    simp [Due.tokens]
  | openList | closeList | openObject | closeObject | comma | colon | null | bool _ | number _
  | broken _ => exact Built.noConfusion h

theorem tokens_of_afterStep {t : Tree} {frame : Frame}
    (h : afterStep t stack frame token = .on found next) :
    openTokens next ++ found.tokens = openTokens (frame :: stack) ++ t.tokens ++ [token] := by
  rw [openTokens_cons]
  cases frame with
  | list items =>
    cases token with
    | comma =>
      obtain ⟨rfl, rfl⟩ := Built.on.inj h
      simp [Due.tokens, Frame.tokens, itemsBefore_cons]
    | closeList =>
      obtain ⟨rfl, rfl⟩ := Built.on.inj h
      have hitems : (itemsOf (t :: items) .closed).tokens = itemsBefore items ++ t.tokens :=
        tokens_itemsOf items t .closed
      simp [Due.tokens, Frame.tokens, Tree.tokens, hitems]
    | openList | openObject | closeObject | colon | null | bool _ | number _ | string _
    | broken _ => exact Built.noConfusion h
  | object members key =>
    cases token with
    | comma =>
      obtain ⟨rfl, rfl⟩ := Built.on.inj h
      simp [Due.tokens, Frame.tokens, membersBefore_cons]
    | closeObject =>
      obtain ⟨rfl, rfl⟩ := Built.on.inj h
      have hmembers : (membersOf ((key, t) :: members) .closed).tokens =
          membersBefore members ++ (.string key :: .colon :: t.tokens) :=
        tokens_membersOf members key t .closed
      simp [Due.tokens, Frame.tokens, Tree.tokens, hmembers]
    | openList | openObject | closeList | colon | null | bool _ | number _ | string _
    | broken _ => exact Built.noConfusion h

/-- **Each token that a walk takes** is behind it then. -/
theorem tokens_of_buildStep (h : buildStep stack due token = .on found next) :
    openTokens next ++ found.tokens = openTokens stack ++ due.tokens ++ [token] := by
  cases due with
  | value =>
    rw [tokens_of_valueStep h, Due.tokens, List.append_nil]
  | firstItem =>
    by_cases hclose : token = .closeList
    · subst hclose
      obtain ⟨rfl, rfl⟩ := Built.on.inj h
      simp [Due.tokens, Tree.tokens, Items.tokens]
    · rw [buildStep_firstItem stack hclose] at h
      rw [tokens_of_valueStep h, openTokens_cons]
      rfl
  | firstKey =>
    by_cases hclose : token = .closeObject
    · subst hclose
      obtain ⟨rfl, rfl⟩ := Built.on.inj h
      simp [Due.tokens, Tree.tokens, Members.tokens]
    · rw [buildStep_firstKey stack hclose] at h
      rw [tokens_of_keyStep h]
      rfl
  | nextItem items =>
    by_cases hclose : token = .closeList
    · subst hclose
      exact Built.noConfusion h
    · rw [buildStep_nextItem stack items hclose] at h
      rw [tokens_of_valueStep h, openTokens_cons]
      rfl
  | nextKey members =>
    by_cases hclose : token = .closeObject
    · subst hclose
      exact Built.noConfusion h
    · rw [buildStep_nextKey stack members hclose] at h
      rw [tokens_of_keyStep h]
      rfl
  | colon members key =>
    cases token with
    | colon =>
      obtain ⟨rfl, rfl⟩ := Built.on.inj h
      simp [openTokens_cons, Due.tokens, Frame.tokens]
    | openList | closeList | openObject | closeObject | comma | null | bool _ | number _
    | string _ | broken _ => exact Built.noConfusion h
  | after t =>
    cases stack with
    | nil => exact Built.noConfusion h
    | cons frame stack => exact tokens_of_afterStep h

end Step

/-! ## Breaks -/

theorem isWhole_of_itemsOf {items : List Tree} {ending : Items}
    (h : (itemsOf items ending).IsWhole) : ending.IsWhole := by
  induction items generalizing ending with
  | nil => exact h
  | cons t items ih =>
    have hcons : (Items.cons t ending).IsWhole := ih h
    rw [Items.IsWhole] at hcons
    exact hcons.2

theorem isWhole_of_membersOf {members : List (Text × Tree)} {ending : Members}
    (h : (membersOf members ending).IsWhole) : ending.IsWhole := by
  induction members generalizing ending with
  | nil => exact h
  | cons m members ih =>
    have hcons : (Members.cons m.1 m.2 ending).IsWhole := ih h
    rw [Members.IsWhole] at hcons
    exact hcons.2

theorem not_isWhole_broken (fault : Fault) : ¬ (Tree.broken fault).IsWhole := by
  rw [Tree.IsWhole]
  exact id

theorem not_isWhole_array {items : List Tree} {ending : Items} (h : ¬ ending.IsWhole) :
    ¬ (Tree.array (itemsOf items ending)).IsWhole := by
  rw [Tree.IsWhole]
  exact fun hwhole => h (isWhole_of_itemsOf hwhole)

theorem not_isWhole_object {members : List (Text × Tree)} {ending : Members}
    (h : ¬ ending.IsWhole) : ¬ (Tree.object (membersOf members ending)).IsWhole := by
  rw [Tree.IsWhole]
  exact fun hwhole => h (isWhole_of_membersOf hwhole)

/-- A tree that breaks inside of something is not whole. -/
theorem isWhole_of_breakAt {t : Tree} {stack : List Frame} (h : (breakAt t stack).IsWhole) :
    t.IsWhole ∧ stack = [] := by
  induction stack generalizing t with
  | nil => exact ⟨h, rfl⟩
  | cons frame stack ih =>
    have hfinish : ¬ (frame.finish t).IsWhole := by
      cases frame with
      | list items => exact not_isWhole_array (by rw [Items.IsWhole]; exact id)
      | object members key => exact not_isWhole_object (by rw [Members.IsWhole]; exact id)
    exact absurd (ih h).1 hfinish

section Over

variable {stack : List Frame} {due : Due} {token : Token} {document : Document}

theorem not_isWhole_of_breaks {t : Tree} (ht : ¬ t.IsWhole)
    (h : Built.breaks t stack = .over document) : ¬ document.tree.IsWhole := by
  rw [← Built.over.inj h]
  exact fun hwhole => ht (isWhole_of_breakAt hwhole).1

theorem not_isWhole_of_valueStep (h : valueStep stack token = .over document) :
    ¬ document.tree.IsWhole := by
  cases token with
  | broken fault => exact not_isWhole_of_breaks (not_isWhole_broken fault) h
  | closeList | closeObject | comma | colon =>
    exact not_isWhole_of_breaks (not_isWhole_broken .foreign) h
  | openList | openObject | null | bool _ | number _ | string _ => exact Built.noConfusion h

theorem not_isWhole_of_keyStep {members : List (Text × Tree)}
    (h : keyStep members stack token = .over document) : ¬ document.tree.IsWhole := by
  have hkey : ∀ found, ¬ (Members.noKey found).IsWhole := by
    intro found
    rw [Members.IsWhole]
    exact id
  cases token with
  | string key => exact Built.noConfusion h
  | openList | closeList | openObject | closeObject | comma | colon | null | bool _ | number _
  | broken _ => exact not_isWhole_of_breaks (not_isWhole_object (hkey _)) h

theorem not_isWhole_of_afterStep {t : Tree} {frame : Frame}
    (h : afterStep t stack frame token = .over document) : ¬ document.tree.IsWhole := by
  have hitems : ¬ Items.foreign.IsWhole := by
    rw [Items.IsWhole]
    exact id
  have hmembers : ¬ Members.foreign.IsWhole := by
    rw [Members.IsWhole]
    exact id
  cases frame with
  | list items =>
    cases token with
    | comma | closeList => exact Built.noConfusion h
    | openList | openObject | closeObject | colon | null | bool _ | number _ | string _
    | broken _ => exact not_isWhole_of_breaks (not_isWhole_array hitems) h
  | object members key =>
    cases token with
    | comma | closeObject => exact Built.noConfusion h
    | openList | openObject | closeList | colon | null | bool _ | number _ | string _
    | broken _ => exact not_isWhole_of_breaks (not_isWhole_object hmembers) h

/-- **A walk that is over before the text ends** leaves something behind the tree, or a tree that is
not whole. -/
theorem not_isWhole_of_over (h : buildStep stack due token = .over document)
    (hfollowed : document.followed = false) : ¬ document.tree.IsWhole := by
  cases due with
  | value => exact not_isWhole_of_valueStep h
  | firstItem =>
    by_cases hclose : token = .closeList
    · subst hclose
      exact Built.noConfusion h
    · rw [buildStep_firstItem stack hclose] at h
      exact not_isWhole_of_valueStep h
  | firstKey =>
    by_cases hclose : token = .closeObject
    · subst hclose
      exact Built.noConfusion h
    · rw [buildStep_firstKey stack hclose] at h
      exact not_isWhole_of_keyStep h
  | nextItem items =>
    by_cases hclose : token = .closeList
    · subst hclose
      exact not_isWhole_of_breaks (not_isWhole_array (by rw [Items.IsWhole]; exact id)) h
    · rw [buildStep_nextItem stack items hclose] at h
      exact not_isWhole_of_valueStep h
  | nextKey members =>
    by_cases hclose : token = .closeObject
    · subst hclose
      exact not_isWhole_of_breaks (not_isWhole_object (by rw [Members.IsWhole]; exact id)) h
    · rw [buildStep_nextKey stack members hclose] at h
      exact not_isWhole_of_keyStep h
  | colon members key =>
    cases token with
    | colon => exact Built.noConfusion h
    | openList | closeList | openObject | closeObject | comma | null | bool _ | number _
    | string _ | broken _ => exact not_isWhole_of_breaks (not_isWhole_broken _) h
  | after t =>
    cases stack with
    | nil =>
      rw [← Built.over.inj h] at hfollowed
      exact Bool.noConfusion hfollowed
    | cons frame stack => exact not_isWhole_of_afterStep h

/-- Where the text ends a tree is whole only if nothing is open. -/
theorem eq_after_of_isWhole (h : (buildEnd stack due).IsWhole) :
    stack = [] ∧ due = .after (buildEnd stack due) := by
  have hbroken : ∀ fault stack, ¬ (breakAt (.broken fault) stack).IsWhole := by
    intro fault stack hwhole
    exact not_isWhole_broken fault (isWhole_of_breakAt hwhole).1
  cases due with
  | after t =>
    obtain ⟨-, rfl⟩ := isWhole_of_breakAt h
    exact ⟨rfl, rfl⟩
  | value | nextItem _ | colon _ _ => exact absurd h (hbroken _ _)
  | firstItem =>
    exact absurd (isWhole_of_breakAt h).1 (by rw [Tree.IsWhole, Items.IsWhole]; exact id)
  | firstKey =>
    exact absurd (isWhole_of_breakAt h).1 (by rw [Tree.IsWhole, Members.IsWhole]; exact id)
  | nextKey members =>
    exact absurd (isWhole_of_breakAt h).1
      (not_isWhole_object (by rw [Members.IsWhole]; exact id))

end Over

/-! ## Documents -/

/-- **A walk that ends with a whole tree** took the tokens of the tree and no others. -/
theorem tokens_of_build {t : Tree} (hwhole : t.IsWhole) (tokens : List Token) {stack : List Frame}
    {due : Due} (h : build due stack tokens = ⟨t, false⟩) :
    t.tokens = openTokens stack ++ due.tokens ++ tokens := by
  induction tokens generalizing stack due with
  | nil =>
    obtain rfl : buildEnd stack due = t := congrArg Document.tree h
    obtain ⟨hstack, hdue⟩ := eq_after_of_isWhole hwhole
    calc (buildEnd stack due).tokens = (Due.after (buildEnd stack due)).tokens := rfl
      _ = due.tokens := by rw [← hdue]
      _ = openTokens stack ++ due.tokens ++ [] := by
        rw [hstack, List.append_nil]
        rfl
  | cons token rest ih =>
    rw [build] at h
    match hstep : buildStep stack due token with
    | .on found next =>
      rw [hstep] at h
      rw [ih h, tokens_of_buildStep hstep, List.append_assoc, List.singleton_append]
    | .over document =>
      rw [hstep] at h
      obtain rfl : document = ⟨t, false⟩ := h
      exact absurd hwhole (not_isWhole_of_over hstep rfl)

mutual

/-- The tokens of a whole tree hold no break. -/
theorem Tree.unbroken_tokens (t : Tree) (h : t.IsWhole) : Unbroken t.tokens := by
  cases t with
  | null | bool _ | number _ | string _ =>
    rw [Tree.tokens]
    intro fault hmem
    exact Token.noConfusion (List.mem_singleton.mp hmem)
  | array is =>
    rw [Tree.IsWhole] at h
    rw [Tree.tokens]
    intro fault hmem
    have hitems := is.unbroken_tokens h fault
    simp [hitems] at hmem
  | object ms =>
    rw [Tree.IsWhole] at h
    rw [Tree.tokens]
    intro fault hmem
    have hmembers := ms.unbroken_tokens h fault
    simp [hmembers] at hmem
  | broken fault => exact absurd h (not_isWhole_broken fault)

theorem Items.unbroken_tokens (is : Items) (h : is.IsWhole) : Unbroken is.tokens := by
  cases is with
  | closed => exact fun _ hmem => absurd hmem List.not_mem_nil
  | ended | foreign | comma =>
    rw [Items.IsWhole] at h
    exact h.elim
  | cons item more =>
    rw [Items.IsWhole] at h
    intro fault hmem
    have hitem := item.unbroken_tokens h.1 fault
    have hmore := more.unbroken_tokens h.2 fault
    cases more with
    | closed => exact hitem hmem
    | ended | foreign | comma =>
      rw [Items.IsWhole] at h
      exact h.2.elim
    | cons next more =>
      rw [Items.tokens_cons_cons] at hmem
      simp [hitem, hmore] at hmem

theorem Members.unbroken_tokens (ms : Members) (h : ms.IsWhole) : Unbroken ms.tokens := by
  cases ms with
  | closed => exact fun _ hmem => absurd hmem List.not_mem_nil
  | ended | foreign | comma | commaEnded | noKey _ =>
    rw [Members.IsWhole] at h
    exact h.elim
  | cons key value more =>
    rw [Members.IsWhole] at h
    intro fault hmem
    have hvalue := value.unbroken_tokens h.1 fault
    have hmore := more.unbroken_tokens h.2 fault
    cases more with
    | closed =>
      rw [Members.tokens] at hmem
      simp [hvalue] at hmem
    | ended | foreign | comma | commaEnded | noKey _ =>
      rw [Members.IsWhole] at h
      exact h.2.elim
    | cons next nextValue more =>
      rw [Members.tokens_cons_cons] at hmem
      simp [hvalue, hmore] at hmem

end

/-- **A document that holds a whole tree and nothing else** is a text of that tree. -/
theorem Document.isText_of_ofSource {t : Tree} {cs : List Char} (hwhole : t.IsWhole)
    (h : Document.ofSource (cs.map some) = ⟨t, false⟩) : t.IsText cs := by
  have htokens : t.tokens = tokens (cs.map some) := tokens_of_build hwhole _ h
  have hunbroken := t.unbroken_tokens hwhole
  refine ⟨hwhole, ?_⟩
  rw [htokens] at hunbroken ⊢
  exact isRow_of_unbroken cs hunbroken

end PinBoard.Json
