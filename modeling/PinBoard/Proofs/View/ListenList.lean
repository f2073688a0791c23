import PinBoard.Proofs.Service.Listens
import PinBoard.Proofs.View.Buttons

/-!
# From an answer to the list on show

The listens of an answer are shown as they came: one item for each of them and in their order, with
a button in it where listens can be pinned. No text in a listen adds an item or a button, since the
tags that are opened in HTML are those of its elements.
-/

namespace PinBoard

/-- A tag that each item has once is there as often as there are items. -/
theorem count_flatMap_one {β : Type} {items : List β} {tags : β → List String} {tag : String}
    (h : ∀ item, (tags item).count tag = 1) : (items.flatMap tags).count tag = items.length := by
  induction items with
  | nil => rfl
  | cons item rest ih =>
    rw [List.flatMap_cons, List.count_append, h, ih, List.length_cons, Nat.add_comm]

namespace View

variable {α : Type} (canPin : Bool) (pin : Listen → α)

/-! ## The list and its items -/

/-- An item opens no other item inside. -/
theorem tags_listenItem (l : Listen) :
    ∃ inside, (listenItem canPin pin l).tags = "li" :: inside ∧ "li" ∉ inside := by
  refine ⟨_, rfl, ?_⟩
  have hrelease : "li" ∉ Node.allTags (release l.trackMetadata.releaseName : List (Node α)) := by
    rcases l.trackMetadata.releaseName with _ | name
    · exact List.not_mem_nil
    · show "li" ∉ ["p"]
      decide
  have htime : "li" ∉ Node.allTags (listenTime l.shownTime : List (Node α)) := by
    rcases l.shownTime with _ | time
    · exact List.not_mem_nil
    · show "li" ∉ ["p"]
      decide
  cases canPin with
  | false => simp [Node.styled, Node.tags, Node.allTags, hrelease, htime]
  | true =>
    simp [Node.styled, Node.tags, Node.allTags, Node.allTags_append, pinButton, hrelease, htime]

/-- What a list of listens shows: each of them, in their order. -/
structure ShowsEach (ls : List Listen) : Prop where
  /-- The items stand side by side in the order of the listens. -/
  written : ls ≠ [] → (html [listenList canPin pin ls]).toList =
    "<ul class=\"space-y-2\">".toList ++
      (ls.flatMap fun l => (html [listenItem canPin pin l]).toList) ++ "</ul>".toList
  /-- The HTML opens an item for each listen and no other. -/
  items : (openedTags (html [listenList canPin pin ls]).toList).count "li" = ls.length
  /-- It opens a button for each listen if listens can be pinned, and none otherwise. -/
  buttons : (openedTags (html [listenList canPin pin ls]).toList).count "button" =
    if canPin then ls.length else 0
  /-- What is written of one listen is one item, with one button in it if listens can be pinned. -/
  item : ∀ l, ∃ inside, openedTags (html [listenItem canPin pin l]).toList = "li" :: inside ∧
    "li" ∉ inside ∧ inside.count "button" = if canPin then 1 else 0
  /-- That button pins this very listen. -/
  acts : ∀ l, (listenItem canPin pin l).buttons =
    if canPin then [acting pinText (pin l)] else []

/-- **The list shows each listen once**, whatever the texts in it. -/
theorem showsEach_listenList (ls : List Listen) : ShowsEach canPin pin ls where
  written := by
    intro hne
    have hempty : ls.isEmpty = false := by
      rwa [List.isEmpty_eq_false_iff]
    rw [toList_html_singleton, listenList, hempty, if_neg Bool.false_ne_true, Node.styled,
      Node.chars, Node.allChars_eq, List.flatMap_map]
    simp [isVoid, Attribute.chars, attributeChars, escape, escapeChar, toList_html_singleton]
  items := by
    rw [openedTags_html_singleton (isTidy_listenList canPin pin ls), listenList]
    rcases ls with _ | ⟨l, rest⟩
    · rfl
    · have hitem : ∀ l, (listenItem canPin pin l).tags.count "li" = 1 := by
        intro l
        obtain ⟨inside, htags, hinside⟩ := tags_listenItem canPin pin l
        rw [htags, List.count_cons_self, List.count_eq_zero_of_not_mem hinside]
      rw [List.isEmpty_cons, if_neg Bool.false_ne_true, Node.styled, Node.tags, Node.allTags_eq,
        List.flatMap_map, List.count_cons_of_ne (by decide), count_flatMap_one hitem]
  buttons := by
    rw [openedTags_html_singleton (isTidy_listenList canPin pin ls), Node.count_tags,
      buttons_listenList]
    cases canPin with
    | false => rfl
    | true => exact List.length_map _
  item := by
    intro l
    obtain ⟨inside, htags, hinside⟩ := tags_listenItem canPin pin l
    have hbuttons := Node.count_tags (listenItem canPin pin l)
    rw [htags, List.count_cons_of_ne (by decide), buttons_listenItem] at hbuttons
    refine ⟨inside, ?_, hinside, ?_⟩
    · rw [openedTags_html_singleton (isTidy_listenItem canPin pin l), htags]
    · rw [hbuttons]
      cases canPin with
      | false => rfl
      | true => rfl
  acts := buttons_listenItem canPin pin

end View

/-! ## From the answer to the list -/

section Answers

open Service

/-- **Listens are kept from the answer to the list on show.**  Where the service answers with a list
of values, wrapped as it should be, all of them are read or nothing is given, and none is lost,
comes twice or changes its place; a list that is left out counts as empty, and the names in the
wrappings have to spell characters. Whatever listens there are, the list on show has one item for
each of them, in their order, each with one button if they can be pinned and with none otherwise. -/
theorem listens_of_answer {client : Client} {responder : Http.Responder} {userName : String}
    {count status : Nat} {body : Http.Body} {ms payload : Json.Members} {values : List Json.Tree}
    (hgets : (client.recentListens userName count).Gets responder status body)
    (hstatus : 200 ≤ status ∧ status ≤ 299) (hbody : body.Holds (.object ms))
    (hpayload : ms.named "payload" = [.object payload]) (hvalues : Lists payload values) :
    ReadsEach ((client.recentListens userName count).result responder) values
        (ms.HaveNames ∧ payload.HaveNames) ∧
      ∀ (α : Type) (canPin : Bool) (pin : Listen → α) (ls : List Listen),
        View.ShowsEach canPin pin ls := by
  refine ⟨readsEach_recentListens hgets hstatus hbody hpayload hvalues, ?_⟩
  intro α canPin pin ls
  exact View.showsEach_listenList canPin pin ls

/-- The members of an answer with one listen, of which nothing is known. -/
def plainAnswer : Json.Members := .ofList [("payload", .object unknownPayload)]

/-- The answer as it arrives. -/
def plainBody : Http.Body := .complete (Text.Utf8.encode (Json.Tree.object plainAnswer).toText)

/-- That listen is given. -/
theorem listens_of_answer_unknown :
    (plainClient.recentListens "alice" 25).Gets (fun _ => .response 200 plainBody) 200 plainBody ∧
      (200 ≤ 200 ∧ 200 ≤ 299) ∧ plainBody.Holds (.object plainAnswer) ∧
      plainAnswer.named "payload" = [.object unknownPayload] ∧
      Lists unknownPayload [.ofMembers []] ∧
      (plainClient.recentListens "alice" 25).result (fun _ => .response 200 plainBody) =
        .ok [.unknown] := by
  have hgets := gets_plainClient 200 plainBody
  have hstatus : 200 ≤ 200 ∧ 200 ≤ 299 := by decide
  have hwritable : (Json.Tree.object plainAnswer).IsWritable :=
    ⟨⟨_, rfl⟩, ⟨⟨_, rfl⟩, ⟨trivial, trivial⟩, trivial⟩, trivial⟩
  have hbody : plainBody.Holds (.object plainAnswer) := Http.Body.holds_ofTree hwritable
  have hlists : Lists unknownPayload [.ofMembers []] := Or.inl rfl
  have hnames : plainAnswer.HaveNames ∧ unknownPayload.HaveNames :=
    ⟨Json.Members.haveNames_ofList _, Json.Members.haveNames_ofList _⟩
  refine ⟨hgets, hstatus, hbody, rfl, hlists, ?_⟩
  obtain ⟨hreads, -⟩ := listens_of_answer hgets hstatus hbody rfl hlists
  rw [hreads.value]
  exact ⟨hnames, .cons rfl .nil⟩

end Answers

end PinBoard
