import PinBoard.Proofs.Service.Envelope
import PinBoard.Proofs.Service.Outcome
import PinBoard.Proofs.Wire.Members

/-!
# The listens that the service gives

The answer wraps the listens twice, and either wrapping may hold members that nobody knows. What
comes of asking for the listens is told by the values in their list: each of them is read, all of
them or nothing, and they stay in order. Only a name in a wrapping that spells no characters keeps
them from being read.
-/

namespace PinBoard

namespace Service

open Json

/-! ## Listens -/

/-- What an answer lists: the values in the one list of listens that its payload has, or none if the
payload has no such member. -/
def Lists (payload : Members) (values : List Tree) : Prop :=
  payload.named "listens" = [.ofList values] ∨ (payload.named "listens" = [] ∧ values = [])

/-- A payload gives the listens that it lists. -/
theorem listenList_object_iff {payload : Members} (hwhole : payload.IsWhole) {values : List Tree}
    (hvalues : Lists payload values) (ls : List Listen) :
    listenList (.object payload) = .ok ls ↔
      payload.HaveNames ∧ List.Forall₂ (fun t l => Listen.decode t = .ok l) values ls := by
  rcases hvalues with hlisted | ⟨hmissing, rfl⟩
  · rw [listenList, unwrap_of_named hwhole hlisted]
    exact and_congr_right' (items_ofList_eq_ok_iff Listen.decode values ls)
  · rw [listenList, unwrap_of_not_named hwhole hmissing, List.forall₂_nil_left_iff,
      Option.some.injEq, eq_comm (a := [])]

/-- What comes of asking for listens where the service lists some values: all of them are read, or
nothing is given. -/
structure ReadsEach (result : Except Failure (List Listen)) (values : List Tree) (named : Prop) :
    Prop where
  succeeds : (∃ ls, result = .ok ls) ↔ named ∧ ∀ t ∈ values, ∃ l, Listen.decode t = .ok l
  value : ∀ ls, result = .ok ls ↔
    named ∧ List.Forall₂ (fun t l => Listen.decode t = .ok l) values ls
  length : ∀ ls, result = .ok ls → ls.length = values.length

/-- **Each listed value is read**, in the order of the list, if the names in the answer and in its
payload spell characters. -/
theorem readsEach_recentListens {client : Client} {responder : Http.Responder} {userName : String}
    {count status : Nat} {body : Http.Body} {ms payload : Members} {values : List Tree}
    (hgets : (client.recentListens userName count).Gets responder status body)
    (hstatus : 200 ≤ status ∧ status ≤ 299) (hbody : body.Holds (.object ms))
    (hpayload : ms.named "payload" = [.object payload]) (hvalues : Lists payload values) :
    ReadsEach ((client.recentListens userName count).result responder) values
      (ms.HaveNames ∧ payload.HaveNames) := by
  obtain ⟨text, htext, htree⟩ := hbody
  have hwhole : ms.IsWhole := htree.1
  have hinner : (Tree.object payload).IsWhole := Members.isWhole_of_named hwhole hpayload
  have hvalue : ∀ ls, (client.recentListens userName count).result responder = .ok ls ↔
      (ms.HaveNames ∧ payload.HaveNames) ∧
        List.Forall₂ (fun t l => Listen.decode t = .ok l) values ls := by
    intro ls
    have hread : readBody recentListens status body = .ok ls ↔
        recentListens (.object ms) = .ok ls := by
      rw [readBody_eq_ok_iff, ← ofString_text recentListens htree]
      simp [isSuccess_iff, hstatus, htext]
    rw [Call.result_of_gets hgets]
    refine hread.trans ?_
    rw [recentListens, unwrap_of_named hwhole hpayload,
      listenList_object_iff hinner hvalues, and_assoc]
  refine ⟨?_, hvalue, fun ls hls => ((hvalue ls).mp hls).2.length_eq.symm⟩
  simp only [hvalue, exists_and_left, exists_forall₂_iff]

/-- Whatever is answered, a client gets it when it asks for the listens of a profile. -/
theorem gets_plainClient (status : Nat) (body : Http.Body) :
    (plainClient.recentListens "alice" 25).Gets (fun _ => .response status body) status body := by
  have hrequest : (plainClient.recentListens "alice" 25).request = plainClient.prepare .get
      ((plainClient.endpoint ["user", "alice", "listens"]).addPair "count"
        (toString (askedListens 25))) none none := rfl
  exact Call.gets_of_eq hrequest rfl (by decide +kernel) status body

/-! ## A name that spells nothing -/

/-- An answer with a lone surrogate in the place of a name, beside a listen of which nothing is
known. -/
def strayText : String :=
  "\x7b\"\\ud800\":0,\"payload\":\x7b\"listens\":[\x7b\x7d]\x7d\x7d"

/-- A payload with that listen. -/
def unknownPayload : Members := .ofList [("listens", .ofList [.ofMembers []])]

/-- Its members. -/
def strayMembers : Members :=
  .cons (.error .unfinishedSurrogate) (.ofInt 0) (.ofList [("payload", .object unknownPayload)])

/-- The text belongs to the grammar. -/
theorem isText_strayText : (Tree.object strayMembers).IsText strayText.toList := by
  refine ⟨⟨trivial, ⟨⟨⟨trivial, trivial⟩, trivial⟩, trivial⟩⟩, ?_⟩
  have hname : Token.IsText (.string (.error .unfinishedSurrogate)) "\"\\ud800\"".toList :=
    Token.IsText.string [.unit ⟨'d', 13, rfl⟩ ⟨'8', 8, rfl⟩ ⟨'0', 0, rfl⟩ ⟨'0', 0, rfl⟩]
  exact isRow_cons .openObject <| isRow_cons hname <| isRow_cons .colon <|
    isRow_cons (.number (isText_ofInt 0)) <| isRow_cons .comma <|
    isRow_cons (isText_writeString "payload") <| isRow_cons .colon <| isRow_cons .openObject <|
    isRow_cons (isText_writeString "listens") <| isRow_cons .colon <| isRow_cons .openList <|
    isRow_cons .openObject <| isRow_cons .closeObject <| isRow_cons .closeList <|
    isRow_cons .closeObject <| isRow_cons .closeObject isRow_nil

/-- **Listens are lost to a name that spells nothing**, although the answer is valid and each of
them can be read. -/
theorem unread_stray_name :
    (plainClient.recentListens "alice" 25).Gets
        (fun _ => .response 200 (.complete (Text.Utf8.encode strayText))) 200
        (.complete (Text.Utf8.encode strayText)) ∧
      (Http.Body.complete (Text.Utf8.encode strayText)).Holds (.object strayMembers) ∧
      strayMembers.named "payload" = [.object unknownPayload] ∧
      unknownPayload.named "listens" = [.ofList [.ofMembers []]] ∧
      Listen.decode (.ofMembers []) = .ok .unknown ∧
      (plainClient.recentListens "alice" 25).result
          (fun _ => .response 200 (.complete (Text.Utf8.encode strayText))) =
        .error (.api 200 "JSON parse error: unexpected end of hex escape") := by
  have hgets := gets_plainClient 200 (.complete (Text.Utf8.encode strayText))
  have htext : (Http.Body.complete (Text.Utf8.encode strayText)).text? = some strayText := by
    decide +kernel
  have hfault : Json.ofString recentListens strayText = .error .unfinishedSurrogate := by
    rw [ofString_text recentListens isText_strayText]
    rfl
  refine ⟨hgets, ⟨strayText, htext, isText_strayText⟩, rfl, rfl, rfl, ?_⟩
  rw [Call.result_of_gets hgets]
  show readBody recentListens 200 (.complete (Text.Utf8.encode strayText)) = _
  rw [readBody_of_text rfl htext, hfault]
  rfl

end Service

end PinBoard
