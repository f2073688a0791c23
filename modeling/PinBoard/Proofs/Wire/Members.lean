import PinBoard.Proofs.Json.Members
import PinBoard.Proofs.Wire.Pin

/-!
# Listens and pins, member by member

Listens come from any client whatever: their members stand in any order, between others that
nobody knows, and any of them may be missing. What each field holds is said here for each type.
-/

namespace PinBoard

open Json

/-! ## What the fields hold -/

/-- What additional identifiers take from the members of an object. -/
structure AdditionalInfo.TakenFrom (ms : List (String × Tree)) (i : AdditionalInfo) : Prop where
  recordingMsid : Takes ms "recording_msid" (optional text) (some none) i.recordingMsid
  recordingMbid : Takes ms "recording_mbid" (optional text) (some none) i.recordingMbid
  releaseMbid : Takes ms "release_mbid" (optional text) (some none) i.releaseMbid
  artistMbids : Takes ms "artist_mbids" (list text) (some []) i.artistMbids

/-- What track metadata take from the members of an object. -/
structure TrackMetadata.TakenFrom (ms : List (String × Tree)) (m : TrackMetadata) : Prop where
  trackName : Takes ms "track_name" (optional text) (some none) m.trackName
  artistName : Takes ms "artist_name" (optional text) (some none) m.artistName
  releaseName : Takes ms "release_name" (optional text) (some none) m.releaseName
  additionalInfo :
    Takes ms "additional_info" (optional AdditionalInfo.decode) (some none) m.additionalInfo

/-- What a listen takes from the members of an object. -/
structure Listen.TakenFrom (ms : List (String × Tree)) (l : Listen) : Prop where
  listenedAt : Takes ms "listened_at" (optional signed) (some none) l.listenedAt
  recordingMsid : Takes ms "recording_msid" (optional text) (some none) l.recordingMsid
  userName : Takes ms "user_name" (optional text) (some none) l.userName
  trackMetadata :
    Takes ms "track_metadata" TrackMetadata.decode (some TrackMetadata.unknown) l.trackMetadata

/-- What a pinned recording takes from the members of an object. -/
structure PinnedRecording.TakenFrom (ms : List (String × Tree)) (p : PinnedRecording) : Prop where
  rowId : Takes ms "row_id" signed none p.rowId
  recordingMsid : Takes ms "recording_msid" text none p.recordingMsid
  recordingMbid : Takes ms "recording_mbid" (optional text) (some none) p.recordingMbid
  blurbContent : Takes ms "blurb_content" (optional text) (some none) p.blurbContent
  created : Takes ms "created" signed none p.created
  pinnedUntil : Takes ms "pinned_until" signed none p.pinnedUntil
  trackMetadata :
    Takes ms "track_metadata" (optional TrackMetadata.decode) (some none) p.trackMetadata

/-- What a pin request takes from the members of an object. -/
structure PinRequest.TakenFrom (ms : List (String × Tree)) (r : PinRequest) : Prop where
  recordingMsid : Takes ms "recording_msid" text none r.recordingMsid
  blurbContent : Takes ms "blurb_content" (optional text) (some none) r.blurbContent
  pinnedUntil : Takes ms "pinned_until" (optional signed) (some none) r.pinnedUntil

/-! ## Less of a record -/

/-- Additional identifiers without the one of a key. -/
def AdditionalInfo.without (i : AdditionalInfo) (key : String) : AdditionalInfo where
  recordingMsid := if key = "recording_msid" then none else i.recordingMsid
  recordingMbid := if key = "recording_mbid" then none else i.recordingMbid
  releaseMbid := if key = "release_mbid" then none else i.releaseMbid
  artistMbids := if key = "artist_mbids" then [] else i.artistMbids

/-- Track metadata without the field of a key. -/
def TrackMetadata.without (m : TrackMetadata) (key : String) : TrackMetadata where
  trackName := if key = "track_name" then none else m.trackName
  artistName := if key = "artist_name" then none else m.artistName
  releaseName := if key = "release_name" then none else m.releaseName
  additionalInfo := if key = "additional_info" then none else m.additionalInfo

/-- A listen without the field of a key. -/
def Listen.without (l : Listen) (key : String) : Listen where
  listenedAt := if key = "listened_at" then none else l.listenedAt
  recordingMsid := if key = "recording_msid" then none else l.recordingMsid
  userName := if key = "user_name" then none else l.userName
  trackMetadata := if key = "track_metadata" then TrackMetadata.unknown else l.trackMetadata

/-! ## How a type is read -/

/-- How a type with the fields of a schema is read from texts of objects in which no key of the
type comes twice. -/
structure ReadsObjects {α : Type} (d : Decoder α) (S : Schema) (required : List String)
    (TakenFrom : List (String × Tree) → α → Prop) : Prop where
  /-- The keys that must be there and the values behind known keys decide whether anything is
  read. -/
  succeeds : ∀ {s : String} {ms}, (Tree.ofMembers ms).IsText s.toList → S.KnownOnce ms →
    ((∃ a, ofString d s = .ok a) ↔
      (∀ key ∈ required, key ∈ ms.map (·.1)) ∧
        ∀ f t, ms.lookup (S.key f) = some t → ∃ v, S.decode f t = .ok v)
  /-- What is read takes every field from the members. -/
  value : ∀ {s : String} {ms}, (Tree.ofMembers ms).IsText s.toList → S.KnownOnce ms →
    ∀ a, ofString d s = .ok a ↔ TakenFrom ms a
  /-- Neither the order nor unknown members nor any spelling makes a difference. -/
  permuted : ∀ {s s' : String} {ms ms'}, (Tree.ofMembers ms).IsText s.toList →
    (Tree.ofMembers ms').IsText s'.toList → S.KnownOnce ms →
    (S.known ms).Perm (S.known ms') → ∀ a, ofString d s = .ok a ↔ ofString d s' = .ok a
  /-- Nor does it inside of the values behind known keys. -/
  alike : ∀ {s s' : String} {ms ms'}, (Tree.ofMembers ms).IsText s.toList →
    (Tree.ofMembers ms').IsText s'.toList → S.KnownOnce ms → S.KnownOnce ms' →
    S.Alike ms ms' → ∀ a, ofString d s = .ok a ↔ ofString d s' = .ok a
  /-- An object of the type may itself stand behind such a key. -/
  inside : ∀ {ms ms'}, (Tree.ofMembers ms).IsWhole → (Tree.ofMembers ms').IsWhole →
    S.KnownOnce ms → S.KnownOnce ms' → S.Alike ms ms' →
    ∀ a, d (.ofMembers ms) = .ok a ↔ d (.ofMembers ms') = .ok a

/-- How a type that needs no member is read when one is taken away. -/
def ReadsLess {α : Type} (d : Decoder α) (without : α → String → α) : Prop :=
  ∀ {s s' : String} {ms₁ m ms₂}, (Tree.ofMembers (ms₁ ++ m :: ms₂)).IsText s.toList →
    (Tree.ofMembers (ms₁ ++ ms₂)).IsText s'.toList →
    ∀ a, ofString d s = .ok a → ofString d s' = .ok (without a m.1)

/-- A record is read as its schema says. -/
theorem Json.Layout.readsObjects {α : Type} (L : Layout α)
    {TakenFrom : List (String × Tree) → α → Prop}
    (htaken : ∀ ms a, (∀ f, L.schema.Finds ms f (L.fields a f)) ↔ TakenFrom ms a) :
    ReadsObjects L.decode L.schema L.schema.required TakenFrom where
  succeeds {s ms} htext hknown := by
    rw [L.exists_ofString_eq_ok_iff htext hknown]
    simp only [Schema.Finds, exists_takes_iff, forall_and, Schema.mem_required]
    refine and_congr_left' ⟨?_, ?_⟩
    · rintro h key ⟨f, rfl, habsent⟩
      exact h f habsent
    · intro h f habsent
      exact h _ ⟨f, rfl, habsent⟩
  value {s ms} htext hknown a := by
    rw [L.ofString_eq_ok_iff htext, and_iff_right hknown]
    exact htaken ms a
  permuted {s s' ms ms'} htext htext' hknown hperm a := by
    rw [ofString_text L.decode htext, ofString_text L.decode htext']
    have hknown' : L.schema.KnownOnce ms' := hknown.of_perm L.keysDiffer hperm
    exact L.decode_congr htext.1 htext'.1 hknown hknown'
      (Schema.alike_of_perm L.keysDiffer hperm hknown) a
  alike {s s' ms ms'} htext htext' hknown hknown' halike a := by
    rw [ofString_text L.decode htext, ofString_text L.decode htext']
    exact L.decode_congr htext.1 htext'.1 hknown hknown' halike a
  inside hwhole hwhole' hknown hknown' halike := L.decode_congr hwhole hwhole' hknown hknown' halike

/-- A record of which nothing has to be there is read from less. -/
theorem Json.Layout.readsLess {α : Type} (L : Layout α) {without : α → String → α}
    (hwithout : ∀ a key f,
      (L.schema.key f ≠ key → L.fields (without a key) f = L.fields a f) ∧
      (L.schema.key f = key → L.schema.absent f = some (L.fields (without a key) f))) :
    ReadsLess L.decode without :=
  fun htext htext' a ha => L.ofString_without htext htext' ha
    (fun f => (hwithout a _ f).1) fun f => (hwithout a _ f).2

/-! ## Single types -/

theorem AdditionalInfo.readsObjects :
    ReadsObjects AdditionalInfo.decode AdditionalInfo.schema [] AdditionalInfo.TakenFrom := by
  refine AdditionalInfo.layout.readsObjects fun ms i => ⟨fun h => ?_, fun h f => ?_⟩
  · exact ⟨h .recordingMsid, h .recordingMbid, h .releaseMbid, h .artistMbids⟩
  · cases f with
    | recordingMsid => exact h.recordingMsid
    | recordingMbid => exact h.recordingMbid
    | releaseMbid => exact h.releaseMbid
    | artistMbids => exact h.artistMbids

theorem AdditionalInfo.readsLess : ReadsLess AdditionalInfo.decode AdditionalInfo.without := by
  refine AdditionalInfo.layout.readsLess fun i key f => ?_
  cases f <;> exact ⟨fun h => if_neg (Ne.symm h), fun h => congrArg some (if_pos h.symm).symm⟩

theorem TrackMetadata.readsObjects :
    ReadsObjects TrackMetadata.decode TrackMetadata.schema [] TrackMetadata.TakenFrom := by
  refine TrackMetadata.layout.readsObjects fun ms m => ⟨fun h => ?_, fun h f => ?_⟩
  · exact ⟨h .trackName, h .artistName, h .releaseName, h .additionalInfo⟩
  · cases f with
    | trackName => exact h.trackName
    | artistName => exact h.artistName
    | releaseName => exact h.releaseName
    | additionalInfo => exact h.additionalInfo

theorem TrackMetadata.readsLess : ReadsLess TrackMetadata.decode TrackMetadata.without := by
  refine TrackMetadata.layout.readsLess fun m key f => ?_
  cases f <;> exact ⟨fun h => if_neg (Ne.symm h), fun h => congrArg some (if_pos h.symm).symm⟩

theorem Listen.readsObjects :
    ReadsObjects Listen.decode Listen.schema [] Listen.TakenFrom := by
  refine Listen.layout.readsObjects fun ms l => ⟨fun h => ?_, fun h f => ?_⟩
  · exact ⟨h .listenedAt, h .recordingMsid, h .userName, h .trackMetadata⟩
  · cases f with
    | listenedAt => exact h.listenedAt
    | recordingMsid => exact h.recordingMsid
    | userName => exact h.userName
    | trackMetadata => exact h.trackMetadata

theorem Listen.readsLess : ReadsLess Listen.decode Listen.without := by
  refine Listen.layout.readsLess fun l key f => ?_
  cases f <;> exact ⟨fun h => if_neg (Ne.symm h), fun h => congrArg some (if_pos h.symm).symm⟩

theorem PinnedRecording.readsObjects :
    ReadsObjects PinnedRecording.decode PinnedRecording.schema
      ["row_id", "recording_msid", "created", "pinned_until"] PinnedRecording.TakenFrom := by
  refine PinnedRecording.layout.readsObjects fun ms p => ⟨fun h => ?_, fun h f => ?_⟩
  · exact ⟨h .rowId, h .recordingMsid, h .recordingMbid, h .blurbContent, h .created,
      h .pinnedUntil, h .trackMetadata⟩
  · cases f with
    | rowId => exact h.rowId
    | recordingMsid => exact h.recordingMsid
    | recordingMbid => exact h.recordingMbid
    | blurbContent => exact h.blurbContent
    | created => exact h.created
    | pinnedUntil => exact h.pinnedUntil
    | trackMetadata => exact h.trackMetadata

theorem PinRequest.readsObjects :
    ReadsObjects PinRequest.decode PinRequest.schema ["recording_msid"]
      PinRequest.TakenFrom := by
  refine PinRequest.layout.readsObjects fun ms r => ⟨fun h => ?_, fun h f => ?_⟩
  · exact ⟨h .recordingMsid, h .blurbContent, h .pinnedUntil⟩
  · cases f with
    | recordingMsid => exact h.recordingMsid
    | blurbContent => exact h.blurbContent
    | pinnedUntil => exact h.pinnedUntil

/-! ## All types -/

/-- **Objects are read member by member.**  Listens, pins and what they are made of are read from
any object that has the keys they need and values that can be read behind the keys they know;
nothing else in the text makes a difference, and what is missing takes its default. -/
theorem wire_readsObjects :
    (ReadsObjects AdditionalInfo.decode AdditionalInfo.schema [] AdditionalInfo.TakenFrom ∧
      ReadsLess AdditionalInfo.decode AdditionalInfo.without) ∧
    (ReadsObjects TrackMetadata.decode TrackMetadata.schema [] TrackMetadata.TakenFrom ∧
      ReadsLess TrackMetadata.decode TrackMetadata.without) ∧
    (ReadsObjects Listen.decode Listen.schema [] Listen.TakenFrom ∧
      ReadsLess Listen.decode Listen.without) ∧
    ReadsObjects PinnedRecording.decode PinnedRecording.schema
      ["row_id", "recording_msid", "created", "pinned_until"] PinnedRecording.TakenFrom ∧
    ReadsObjects PinRequest.decode PinRequest.schema ["recording_msid"] PinRequest.TakenFrom :=
  ⟨⟨AdditionalInfo.readsObjects, AdditionalInfo.readsLess⟩,
    ⟨TrackMetadata.readsObjects, TrackMetadata.readsLess⟩,
    ⟨Listen.readsObjects, Listen.readsLess⟩, PinnedRecording.readsObjects, PinRequest.readsObjects⟩

/-! ## A listen between others' members -/

/-- A listen with a member nobody knows and a key that is spelled with an escape. -/
def strangeText : String :=
  "\x7b \"b\":[null],\"track\\u005fmetadata\":\x7b\x7d,\"listened_at\":7\x7d"

/-- Its members. -/
def strangeMembers : List (String × Tree) :=
  [("b", .ofList [.null]), ("track_metadata", .ofMembers []), ("listened_at", .ofInt64 7)]

/-- The key with its escape. -/
theorem isText_strangeKey :
    Token.IsText (.string (.ok "track_metadata")) "\"track\\u005fmetadata\"".toList :=
  Token.IsText.string
    [.plain 't' (by decide), .plain 'r' (by decide), .plain 'a' (by decide), .plain 'c' (by decide),
      .plain 'k' (by decide), .unit ⟨'0', 0, rfl⟩ ⟨'0', 0, rfl⟩ ⟨'5', 5, rfl⟩ ⟨'f', 15, rfl⟩,
      .plain 'm' (by decide), .plain 'e' (by decide), .plain 't' (by decide), .plain 'a' (by decide),
      .plain 'd' (by decide), .plain 'a' (by decide), .plain 't' (by decide), .plain 'a' (by decide)]

theorem isText_strangeText : (Tree.ofMembers strangeMembers).IsText strangeText.toList := by
  refine ⟨⟨⟨trivial, trivial⟩, trivial, trivial, trivial⟩, ?_⟩
  have hblank : ∀ c ∈ [' '], isSpace c = true := fun c hc => by
    rw [List.mem_singleton.mp hc]
    rfl
  exact isRow_cons .openObject <| .cons hblank (isText_writeString "b") <| isRow_cons .colon <|
    isRow_cons .openList <| isRow_cons .null <| isRow_cons .closeList <| isRow_cons .comma <|
    isRow_cons isText_strangeKey <| isRow_cons .colon <| isRow_cons .openObject <|
    isRow_cons .closeObject <| isRow_cons .comma <| isRow_cons (isText_writeString "listened_at") <|
    isRow_cons .colon <| isRow_cons (.number (isText_ofInt 7)) <| isRow_cons .closeObject isRow_nil

/-- Only the time of this listen is known. -/
theorem listen_of_strangeText :
    (Tree.ofMembers strangeMembers).IsText strangeText.toList ∧
      Listen.schema.KnownOnce strangeMembers ∧
      ofString Listen.decode strangeText = .ok ⟨some 7, none, none, TrackMetadata.unknown⟩ := by
  have hknown : Listen.schema.KnownOnce strangeMembers := Schema.knownOnce_of_nodup (by decide)
  refine ⟨isText_strangeText, hknown, ?_⟩
  obtain ⟨-, -, ⟨hlisten, -⟩, -⟩ := wire_readsObjects
  refine (hlisten.value isText_strangeText hknown _).mpr ⟨?_, ?_, ?_, ?_⟩
  · exact Or.inl ⟨_, rfl, rfl⟩
  · exact Or.inr ⟨rfl, rfl⟩
  · exact Or.inr ⟨rfl, rfl⟩
  · exact Or.inl ⟨_, rfl, rfl⟩

end PinBoard
