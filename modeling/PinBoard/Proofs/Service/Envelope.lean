import PinBoard.Http.Body
import PinBoard.Proofs.Json.Minding
import PinBoard.Proofs.Wire.Pin
import PinBoard.Service.Envelope

/-!
# What envelopes say

Each answer of the service is wrapped in a record. What such a record says is told here by trees
alone: by the one value behind its key, and by what is taken where the key does not occur. What is
unwrapped from a text is what a tree of this text says, and it is nothing if no tree of
the text says anything.
-/

namespace PinBoard

/-- A body that arrived complete and is a text of a tree. -/
def Http.Body.Holds (body : Http.Body) (t : Json.Tree) : Prop :=
  ∃ text, body.text? = some text ∧ t.IsText text.toList

/-- The body that is written of a tree. -/
def Http.Body.ofTree (t : Json.Tree) : Http.Body := .complete (Text.Utf8.encode t.toText)

/-- A text that begins with a brace has no byte order mark, so its bytes are read as UTF-8. -/
theorem Http.textOfBytes_encode_object (cs : List Char) :
    Http.textOfBytes (Text.Utf8.encodeChars ('\x7b' :: cs)) = String.ofList ('\x7b' :: cs) := by
  have hfirst : Text.Utf8.encodeChars ('\x7b' :: cs) = 0x7B :: Text.Utf8.encodeChars cs := rfl
  have hmark : Http.textOfBytes (0x7B :: Text.Utf8.encodeChars cs) =
      Text.Utf8.decodeLossy (0x7B :: Text.Utf8.encodeChars cs) := rfl
  rw [hfirst, hmark, ← hfirst, Text.Utf8.decodeLossy, Text.Utf8.decode_encodeChars, List.map_map]
  congr 1
  exact List.map_id _

/-- What is written of an object holds it. -/
theorem Http.Body.holds_ofTree {members : List (String × Json.Tree)}
    (h : (Json.Tree.ofMembers members).IsWritable) :
    (Http.Body.ofTree (.ofMembers members)).Holds (.ofMembers members) := by
  refine ⟨(Json.Tree.ofMembers members).toText, ?_, ?_⟩
  · rw [Http.Body.ofTree, Http.Body.text?, Text.Utf8.encode, Json.Tree.toText,
      String.toList_ofList, Json.Tree.ofMembers, Json.Tree.write]
    exact congrArg some (Http.textOfBytes_encode_object _)
  · rw [Json.Tree.toText, String.toList_ofList]
    exact Json.Tree.isText_write h

section Reads

variable {α : Type} {d : Json.Decoder α} {Says : Json.Tree → α → Prop} (hd : Json.Reads d Says)
  {body : Http.Body}
include hd

/-- What is read of a body that arrived complete is what a tree of it says. -/
theorem Json.Reads.holds_iff {a : α} :
    (∃ text, body.text? = some text ∧ Json.ofString d text = .ok a) ↔
      ∃ t, body.Holds t ∧ Says t a := by
  constructor
  · rintro ⟨text, hbody, ha⟩
    obtain ⟨t, htext, hsaid⟩ := hd.ofString_eq_ok_iff.mp ha
    exact ⟨t, ⟨text, hbody, htext⟩, hsaid⟩
  · rintro ⟨t, ⟨text, hbody, htext⟩, hsaid⟩
    exact ⟨text, hbody, hd.ofString_eq_ok_iff.mpr ⟨t, htext, hsaid⟩⟩

/-- Nothing is read of it if no tree of it says anything. -/
theorem Json.Reads.unread_iff {text : String} (hbody : body.text? = some text) :
    (∃ e, Json.ofString d text = .error e) ↔ ∀ t a, body.Holds t → ¬ Says t a := by
  constructor
  · rintro ⟨e, he⟩ t a hholds hsaid
    obtain ⟨other, hother, ha⟩ := hd.holds_iff.mpr ⟨t, hholds, hsaid⟩
    rw [hbody] at hother
    obtain rfl := Option.some.inj hother
    exact absurd (he.symm.trans ha) (by simp)
  · intro hsilent
    cases hread : Json.ofString d text with
    | error e => exact ⟨e, rfl⟩
    | ok a =>
      obtain ⟨t, hholds, hsaid⟩ := hd.holds_iff.mp ⟨text, hbody, hread⟩
      exact absurd hsaid (hsilent t a hholds)

end Reads

namespace Service

open Json

/-! ## One field -/

/-- What an envelope with one field says: what the one value behind its key says, or what the one
item of an array says. Something may be taken for a missing key, and something for an array without
items. -/
inductive Wraps {α : Type} (key : String) (Says : Tree → α → Prop) (absent cut : Option α) :
    Tree → α → Prop
  | member {ms : Members} {t : Tree} {a : α} (hnames : ms.HaveNames)
    (hmember : ms.named key = [t]) (h : Says t a) : Wraps key Says absent cut (.object ms) a
  | missing {ms : Members} {a : α} (hnames : ms.HaveNames) (hmissing : ms.named key = [])
    (habsent : absent = some a) : Wraps key Says absent cut (.object ms) a
  | item {t : Tree} {a : α} (h : Says t a) : Wraps key Says absent cut (.ofList [t]) a
  | empty {a : α} (hcut : cut = some a) : Wraps key Says absent cut (.ofList []) a

/-- What an envelope holds as a record of one field. -/
def envelope {α : Type} (name key : String) (d : Decoder α) (absent cut : Option α) : Layout α where
  schema := wrap name key d absent cut
  fields :=
    { toFun a := fun _ => a
      invFun r := r .only
      left_inv _ := rfl
      right_inv r := by
        funext f
        cases f
        rfl }
  keysDiffer f := by
    cases f
    simp [Schema.field?, wrap]
  nodup := List.nodup_singleton _
  pass_eq := rfl

section Unwrap

variable {α : Type} {name key : String} {d : Decoder α} {absent cut : Option α}

section Object

variable {ms : Members} (hwhole : ms.IsWhole)
include hwhole

theorem unwrap_object_iff {a : α} :
    unwrap name key d absent cut (.object ms) = .ok a ↔
      ms.HaveNames ∧ ms.Gives key d absent a := by
  apply ((envelope name key d absent cut).decode_object_iff hwhole).trans
  apply and_congr_right
  intro _
  exact ⟨fun h => h .only, fun h _ => h⟩

/-- **An envelope gives what stands behind its one key**, unless a name in it spells nothing. -/
theorem unwrap_of_named {t : Tree} (h : ms.named key = [t]) {a : α} :
    unwrap name key d absent cut (.object ms) = .ok a ↔ ms.HaveNames ∧ d t = .ok a := by
  rw [unwrap_object_iff hwhole, Members.Gives, h]
  simp

/-- Without the key it gives what it takes otherwise. -/
theorem unwrap_of_not_named (h : ms.named key = []) {a : α} :
    unwrap name key d absent cut (.object ms) = .ok a ↔ ms.HaveNames ∧ absent = some a := by
  rw [unwrap_object_iff hwhole, Members.Gives, h]
  simp

end Object

/-- From an array it gives the one item, or what it takes without an item. -/
theorem unwrap_array_iff {is : Items} {a : α} :
    unwrap name key d absent cut (.array is) = .ok a ↔
      (∃ t, is = .ofList [t] ∧ d t = .ok a) ∨ (is = .ofList [] ∧ cut = some a) := by
  apply (envelope name key d absent cut).decode_array_iff.trans
  constructor
  · intro hrow
    cases is with
    | closed => exact Or.inr ⟨rfl, hrow.1⟩
    | cons item rest =>
      cases rest with
      | closed => exact Or.inl ⟨item, rfl, hrow.1⟩
      | ended | foreign | comma | cons _ _ => exact hrow.2.elim
    | ended | foreign | comma => exact hrow.elim
  · rintro (⟨t, rfl, ha⟩ | ⟨rfl, hcut⟩)
    · exact ⟨ha, trivial⟩
    · exact ⟨hcut, trivial⟩

/-- **What is unwrapped is what the envelope says.** -/
theorem reads_unwrap {Says : Tree → α → Prop} (hd : Reads d Says) :
    Reads (unwrap name key d absent cut) (Wraps key Says absent cut) := by
  have hminds : MindsGrammar (unwrap name key d absent cut) :=
    (envelope name key d absent cut).mindsGrammar fun _ => hd.mindsGrammar
  intro t a
  constructor
  · intro h
    have hwhole : t.IsWhole := hminds t a h
    refine ⟨hwhole, ?_⟩
    cases t with
    | object ms =>
      rw [Tree.IsWhole] at hwhole
      obtain ⟨hnames, ⟨t, hmember, ha⟩ | ⟨hmissing, habsent⟩⟩ := (unwrap_object_iff hwhole).mp h
      · exact .member hnames hmember ((hd t a).mp ha).2
      · exact .missing hnames hmissing habsent
    | array is =>
      rcases unwrap_array_iff.mp h with ⟨t, rfl, ha⟩ | ⟨rfl, hcut⟩
      · exact .item ((hd t a).mp ha).2
      · exact .empty hcut
    | null | bool _ | number _ | string _ | broken _ => cases h
  · rintro ⟨hwhole, h⟩
    cases h with
    | @member ms t a hnames hmember hsaid =>
      rw [Tree.IsWhole] at hwhole
      have ht : t.IsWhole := Members.isWhole_of_named hwhole hmember
      exact (unwrap_of_named hwhole hmember).mpr ⟨hnames, (hd t a).mpr ⟨ht, hsaid⟩⟩
    | missing hnames hmissing habsent =>
      rw [Tree.IsWhole] at hwhole
      exact (unwrap_of_not_named hwhole hmissing).mpr ⟨hnames, habsent⟩
    | @item t a hsaid =>
      rw [Tree.ofList, Tree.IsWhole, Items.ofList, Items.IsWhole] at hwhole
      exact unwrap_array_iff.mpr (Or.inl ⟨t, rfl, (hd t a).mpr ⟨hwhole.1, hsaid⟩⟩)
    | empty hcut => exact unwrap_array_iff.mpr (Or.inr ⟨rfl, hcut⟩)

end Unwrap

/-! ## The envelopes of the service -/

/-- An error is named. -/
def NamesError : Tree → String → Prop :=
  Wraps "error" (fun t message => t = .ofString message) none none

/-- A pin is told, or that there is none. -/
def TellsPin : Tree → Option PinnedRecording → Prop :=
  Wraps "pinned_recording" (OrNull fun t pin => PinnedRecording.decode t = .ok pin) (some none) none

/-- Listens are listed; without a list there are none. -/
def ListsListens : Tree → List Listen → Prop :=
  Wraps "listens" (ItemWise fun t listen => Listen.decode t = .ok listen) (some []) (some [])

/-- Listens are told. -/
def TellsListens : Tree → List Listen → Prop :=
  Wraps "payload" ListsListens none none

theorem reads_errorText : Reads errorText NamesError := reads_unwrap reads_text

theorem reads_currentPin : Reads currentPin TellsPin :=
  reads_unwrap PinnedRecording.mindsGrammar.reads.optional

theorem reads_listenList : Reads listenList ListsListens :=
  reads_unwrap Listen.mindsGrammar.reads.list

theorem reads_recentListens : Reads recentListens TellsListens := reads_unwrap reads_listenList

/-! ## Checked tokens -/

/-- What the service says of a token: whether it is valid and, unless that is left out, the name of
the user whose token it is. -/
inductive TellsCheck : Tree → TokenCheck → Prop
  | named {ms : Members} {valid : Bool} {t : Tree} {userName : Option String}
    (hnames : ms.HaveNames) (hvalid : ms.named "valid" = [.bool valid])
    (hname : ms.named "user_name" = [t])
    (h : OrNull (fun t name => t = .ofString name) t userName) :
    TellsCheck (.object ms) ⟨valid, userName⟩
  | unnamed {ms : Members} {valid : Bool} (hnames : ms.HaveNames)
    (hvalid : ms.named "valid" = [.bool valid]) (hname : ms.named "user_name" = []) :
    TellsCheck (.object ms) ⟨valid, none⟩
  | items {valid : Bool} {t : Tree} {userName : Option String}
    (h : OrNull (fun t name => t = .ofString name) t userName) :
    TellsCheck (.ofList [.bool valid, t]) ⟨valid, userName⟩
  | short {valid : Bool} : TellsCheck (.ofList [.bool valid]) ⟨valid, none⟩

/-- What the service says of a token as a record. -/
def TokenCheck.layout : Layout TokenCheck where
  schema := TokenCheck.schema
  fields :=
    { toFun check := fun
        | .valid => check.valid
        | .userName => check.userName
      invFun r := ⟨r .valid, r .userName⟩
      left_inv _ := rfl
      right_inv r := by
        funext f
        cases f <;> rfl }
  keysDiffer f := by cases f <;> rfl
  nodup := by decide
  pass_eq := rfl

theorem TokenCheck.mindsGrammar : MindsGrammar TokenCheck.decode := by
  apply TokenCheck.layout.mindsGrammar
  intro f
  cases f with
  | valid => exact mindsGrammar_bool
  | userName => exact mindsGrammar_text.optional

/-- From an object both fields are read. -/
theorem TokenCheck.decode_object_iff {ms : Members} (hwhole : ms.IsWhole) {check : TokenCheck} :
    TokenCheck.decode (.object ms) = .ok check ↔
      ms.HaveNames ∧ ms.Gives "valid" bool none check.valid ∧
        ms.Gives "user_name" (optional text) (some none) check.userName := by
  apply (TokenCheck.layout.decode_object_iff hwhole).trans
  apply and_congr_right
  intro _
  constructor
  · intro h
    exact ⟨h .valid, h .userName⟩
  · rintro ⟨hvalid, hname⟩ f
    cases f with
    | valid => exact hvalid
    | userName => exact hname

/-- From an array they are read in this order. -/
theorem TokenCheck.decode_array_iff {is : Items} {check : TokenCheck} :
    TokenCheck.decode (.array is) = .ok check ↔
      (∃ t u, is = .ofList [t, u] ∧ bool t = .ok check.valid ∧
          optional text u = .ok check.userName) ∨
        ∃ t, is = .ofList [t] ∧ bool t = .ok check.valid ∧ check.userName = none := by
  apply TokenCheck.layout.decode_array_iff.trans
  constructor
  · intro hrow
    cases is with
    | cons t rest =>
      obtain ⟨hvalid, hrow⟩ := hrow
      cases rest with
      | closed => exact Or.inr ⟨t, rfl, hvalid, (Option.some.inj hrow.1).symm⟩
      | cons u rest =>
        cases rest with
        | closed => exact Or.inl ⟨t, u, rfl, hvalid, hrow.1⟩
        | ended | foreign | comma | cons _ _ => exact hrow.2.elim
      | ended | foreign | comma => exact hrow.elim
    | closed => exact nomatch hrow.1
    | ended | foreign | comma => exact hrow.elim
  · rintro (⟨t, u, rfl, hvalid, hname⟩ | ⟨t, rfl, hvalid, hname⟩)
    · exact ⟨hvalid, hname, trivial⟩
    · exact ⟨hvalid, congrArg some hname.symm, trivial⟩

/-- **What is read of a token is what the service says of it.** -/
theorem reads_tokenCheck : Reads TokenCheck.decode TellsCheck := by
  have hname := reads_text.optional
  intro t check
  constructor
  · intro h
    have hwhole : t.IsWhole := TokenCheck.mindsGrammar t check h
    refine ⟨hwhole, ?_⟩
    obtain ⟨valid, userName⟩ := check
    cases t with
    | object ms =>
      rw [Tree.IsWhole] at hwhole
      obtain ⟨hnames, hvalid, hgives⟩ := (TokenCheck.decode_object_iff hwhole).mp h
      obtain ⟨u, hmember, hu⟩ | ⟨-, hnone⟩ := hvalid
      · obtain rfl := ((reads_bool u valid).mp hu).2
        obtain ⟨t, hnamed, ht⟩ | ⟨hunnamed, hnone⟩ := hgives
        · exact .named hnames hmember hnamed ((hname t _).mp ht).2
        · obtain rfl := Option.some.inj hnone
          exact .unnamed hnames hmember hunnamed
      · cases hnone
    | array is =>
      rcases TokenCheck.decode_array_iff.mp h with ⟨t, u, rfl, ht, hu⟩ | ⟨t, rfl, ht, hnone⟩
      · obtain rfl := ((reads_bool t valid).mp ht).2
        exact .items ((hname u _).mp hu).2
      · obtain rfl := ((reads_bool t valid).mp ht).2
        obtain rfl : userName = none := hnone
        exact .short
    | null | bool _ | number _ | string _ | broken _ => cases h
  · rintro ⟨hwhole, h⟩
    cases h with
    | @named ms valid t userName hnames hvalid hnamed hsaid =>
      rw [Tree.IsWhole] at hwhole
      have ht : t.IsWhole := Members.isWhole_of_named hwhole hnamed
      exact (TokenCheck.decode_object_iff hwhole).mpr
        ⟨hnames, Or.inl ⟨_, hvalid, rfl⟩, Or.inl ⟨t, hnamed, (hname t _).mpr ⟨ht, hsaid⟩⟩⟩
    | unnamed hnames hvalid hunnamed =>
      rw [Tree.IsWhole] at hwhole
      exact (TokenCheck.decode_object_iff hwhole).mpr
        ⟨hnames, Or.inl ⟨_, hvalid, rfl⟩, Or.inr ⟨hunnamed, rfl⟩⟩
    | @items valid t userName hsaid =>
      simp only [Tree.ofList, Tree.IsWhole, Items.ofList, Items.IsWhole] at hwhole
      exact TokenCheck.decode_array_iff.mpr
        (Or.inl ⟨_, t, rfl, rfl, (hname t _).mpr ⟨hwhole.2.1, hsaid⟩⟩)
    | short => exact TokenCheck.decode_array_iff.mpr (Or.inr ⟨_, rfl, rfl, rfl⟩)

end Service

end PinBoard
