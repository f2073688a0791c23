import PinBoard.Json.Decode
import PinBoard.Proofs.Json.Scan
import PinBoard.Proofs.Result
import PinBoard.Proofs.Text.Utf8

/-!
# Texts are read as their trees

The tokens of a tree build this tree, under whatever arrays and objects are open around it. Since
every text of a tree is cut into the tokens of the tree, it is a document that holds the tree and
nothing else, be it read as a string or as bytes.
-/

namespace PinBoard.Json

/-! ## Where a value begins -/

/-- Tokens of which the first one can begin a value. -/
def Opening (tokens : List Token) : Prop :=
  ∃ first more, tokens = first :: more ∧ first.opens = true

theorem Opening.append {tokens : List Token} (h : Opening tokens) (rest : List Token) :
    Opening (tokens ++ rest) := by
  obtain ⟨first, more, rfl, hopens⟩ := h
  exact ⟨first, more ++ rest, rfl, hopens⟩

/-- The tokens of a tree. -/
theorem Tree.opening_tokens (t : Tree) : Opening t.tokens := by
  cases t with
  | array is => exact ⟨.openList, is.tokens ++ [.closeList], by rw [Tree.tokens]; rfl, rfl⟩
  | object ms => exact ⟨.openObject, ms.tokens ++ [.closeObject], by rw [Tree.tokens]; rfl, rfl⟩
  | null | bool _ | number _ | string _ | broken _ => exact ⟨_, [], by rw [Tree.tokens], rfl⟩

/-- The tokens of items begin with those of the first one. -/
theorem Items.opening_tokens (item : Tree) {more : Items} (h : more.IsWhole) :
    Opening (Items.cons item more).tokens := by
  cases more with
  | closed =>
    rw [Items.tokens]
    exact item.opening_tokens
  | ended | foreign | comma =>
    rw [Items.IsWhole] at h
    exact h.elim
  | cons next more =>
    rw [Items.tokens_cons_cons]
    exact item.opening_tokens.append _

section First

variable {tokens : List Token} (h : Opening tokens) (stack : List Frame)
include h

/-- The first item of an array is a value like any other. -/
theorem build_firstItem :
    build .firstItem stack tokens = build .value (.list [] :: stack) tokens := by
  obtain ⟨first, more, rfl, hopens⟩ := h
  have hstep : buildStep stack .firstItem first = buildStep (.list [] :: stack) .value first := by
    cases first <;> first | rfl | exact absurd hopens (by decide)
  rw [build, build, hstep]

/-- So is an item behind a comma. -/
theorem build_nextItem (done : List Tree) :
    build (.nextItem done) stack tokens = build .value (.list done :: stack) tokens := by
  obtain ⟨first, more, rfl, hopens⟩ := h
  have hstep : buildStep stack (.nextItem done) first =
      buildStep (.list done :: stack) .value first := by
    cases first <;> first | rfl | exact absurd hopens (by decide)
  rw [build, build, hstep]

end First

/-! ## Trees -/

mutual

/-- The tokens of a tree build it. -/
theorem Tree.build_tokens (t : Tree) (h : t.IsWhole) (stack : List Frame) (rest : List Token) :
    build .value stack (t.tokens ++ rest) = build (.after t) stack rest := by
  cases t with
  | null | bool _ | number _ | string _ =>
    rw [Tree.tokens, List.singleton_append, build]
    rfl
  | broken fault =>
    rw [Tree.IsWhole] at h
    exact h.elim
  | array is =>
    rw [Tree.IsWhole] at h
    have hopen : ∀ tail : List Token,
        build .value stack (.openList :: tail) = build .firstItem stack tail := fun _ => rfl
    have hitems := is.build_tokens h [] stack rest
    rw [Tree.tokens, List.cons_append, List.cons_append, List.append_assoc, hopen,
      List.singleton_append]
    cases is with
    | closed =>
      rfl
    | ended | foreign | comma =>
      rw [Items.IsWhole] at h
      exact h.elim
    | cons item more =>
      rw [Items.IsWhole] at h
      rw [build_firstItem ((Items.opening_tokens item h.2).append _), hitems (by simp)]
      rfl
  | object ms =>
    rw [Tree.IsWhole] at h
    have hopen : ∀ tail : List Token,
        build .value stack (.openObject :: tail) = build .firstKey stack tail := fun _ => rfl
    have hmembers := ms.build_tokens h [] stack rest
    rw [Tree.tokens, List.cons_append, List.cons_append, List.append_assoc, hopen,
      List.singleton_append]
    cases ms with
    | closed => rfl
    | ended | foreign | comma | commaEnded | noKey found =>
      rw [Members.IsWhole] at h
      exact h.elim
    | cons key value more =>
      have hfirst : ∀ tail : List Token, build .firstKey stack (.string key :: tail) =
          build (.nextKey []) stack (.string key :: tail) := fun _ => rfl
      obtain ⟨tail, htail⟩ := Members.tokens_cons key value more
      have hmembers := hmembers (by simp)
      rw [htail, List.cons_append] at hmembers ⊢
      rw [hfirst, hmembers]
      rfl

/-- The tokens of items build an array, behind the items that it holds already. -/
theorem Items.build_tokens (is : Items) (h : is.IsWhole) (done : List Tree)
    (stack : List Frame) (rest : List Token) (hne : is ≠ .closed) :
    build .value (.list done :: stack) (is.tokens ++ .closeList :: rest) =
      build (.after (.array (itemsOf done is))) stack rest := by
  cases is with
  | closed => exact absurd rfl hne
  | ended | foreign | comma =>
    rw [Items.IsWhole] at h
    exact h.elim
  | cons item more =>
    rw [Items.IsWhole] at h
    have hmore := more.build_tokens h.2 (item :: done) stack rest
    cases more with
    | closed =>
      rw [Items.tokens, item.build_tokens h.1]
      rfl
    | ended | foreign | comma =>
      rw [Items.IsWhole] at h
      exact h.2.elim
    | cons next more =>
      have hcomma : ∀ tail : List Token,
          build (.after item) (.list done :: stack) (.comma :: tail) =
            build (.nextItem (item :: done)) stack tail := fun _ => rfl
      have hopening := Items.opening_tokens next h.2.2
      rw [Items.tokens_cons_cons, List.append_assoc, item.build_tokens h.1, List.cons_append,
        hcomma, build_nextItem (hopening.append _), hmore (by simp)]
      rfl

/-- The tokens of members build an object, behind the members that it holds already. -/
theorem Members.build_tokens (ms : Members) (h : ms.IsWhole) (done : List (Text × Tree))
    (stack : List Frame) (rest : List Token) (hne : ms ≠ .closed) :
    build (.nextKey done) stack (ms.tokens ++ .closeObject :: rest) =
      build (.after (.object (membersOf done ms))) stack rest := by
  cases ms with
  | closed => exact absurd rfl hne
  | ended | foreign | comma | commaEnded | noKey found =>
    rw [Members.IsWhole] at h
    exact h.elim
  | cons key value more =>
    rw [Members.IsWhole] at h
    obtain ⟨hvalue, hmore⟩ := h
    have htail := more.build_tokens hmore ((key, value) :: done) stack rest
    have hkey : ∀ tail : List Token,
        build (.nextKey done) stack (.string key :: .colon :: tail) =
          build .value (.object done key :: stack) tail := fun _ => rfl
    cases more with
    | closed =>
      rw [Members.tokens, List.cons_append, List.cons_append, hkey, value.build_tokens hvalue]
      rfl
    | ended | foreign | comma | commaEnded | noKey found =>
      rw [Members.IsWhole] at hmore
      exact hmore.elim
    | cons next nextValue more =>
      have hcomma : ∀ tail : List Token,
          build (.after value) (.object done key :: stack) (.comma :: tail) =
            build (.nextKey ((key, value) :: done)) stack tail := fun _ => rfl
      rw [Members.tokens_cons_cons, List.append_assoc, List.cons_append, List.cons_append, hkey,
        value.build_tokens hvalue, List.cons_append, hcomma, htail (by simp)]
      rfl

end

/-! ## Documents -/

/-- **Every text of a tree is read as the tree**, with nothing behind it. -/
theorem Document.ofSource_text {t : Tree} {cs : List Char} (h : t.IsText cs) :
    Document.ofSource (cs.map some) = ⟨t, false⟩ := by
  have hbuild := t.build_tokens h.1 [] []
  rw [List.append_nil] at hbuild
  rw [Document.ofSource, h.tokens_eq, hbuild]
  rfl

section Text

variable {α : Type} (d : Decoder α) {t : Tree}

/-- What is read of a document that holds a tree and nothing else is read of the tree. -/
theorem Document.decode_tree (t : Tree) : Document.decode d ⟨t, false⟩ = d t := by
  rw [Document.decode]
  cases d t <;> rfl

/-- What is read of a text is what is read of its tree. -/
theorem ofString_text {s : String} (h : t.IsText s.toList) : ofString d s = d t := by
  rw [ofString, Source.ofString, Document.ofSource_text h, Document.decode_tree]

/-- So it is with the bytes of a text. -/
theorem ofBytes_text {cs : List Char} (h : t.IsText cs) :
    ofBytes d (Text.Utf8.encodeChars cs) = d t := by
  rw [ofBytes, Source.ofBytes, Text.Utf8.decode_encodeChars, Document.ofSource_text h,
    Document.decode_tree]

end Text

/-- What is read of bytes is read of the tree that they hold. -/
theorem read_of_ofBytes {α : Type} {d : Decoder α} {bytes : List UInt8} {a : α}
    (h : ofBytes d bytes = .ok a) : d (Document.ofSource (Source.ofBytes bytes)).tree = .ok a := by
  rw [ofBytes, Document.decode] at h
  obtain ⟨value, hvalue, h⟩ := bind_eq_ok_iff.mp h
  obtain ⟨_, h⟩ := refuse_eq_ok_iff.mp h
  rw [hvalue, Except.ok.inj h]

end PinBoard.Json
