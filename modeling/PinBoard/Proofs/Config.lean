import PinBoard.Proofs.Registry
import PinBoard.Proofs.Server.Session
import PinBoard.Proofs.Service.Endpoint
import PinBoard.Proofs.Text.Decimal

/-!
# What the environment configures

The page size and the port are numbers within bounds if their variables spell such numbers, and the
usual ones otherwise, whatever else the variables hold. So every environment gives a configuration
whose page size is not zero, and as many listens are asked for as a page has, up to the thousand
that the service gives at once.
-/

namespace PinBoard

/-! ## Numbers of the environment -/

/-- A variable is set to a number within bounds. -/
def IsSetTo (value : Option (List UInt8)) (least greatest n : Nat) : Prop :=
  ∃ bytes, value = some bytes ∧ Text.Spells (bytes.map UInt8.toNat) n ∧ least ≤ n ∧ n ≤ greatest

/-- The number that a variable is set to, or the usual one if it is not set to a number within
bounds. -/
def IsChosen (value : Option (List UInt8)) (least greatest usual n : Nat) : Prop :=
  IsSetTo value least greatest n ∨ (∀ m, ¬ IsSetTo value least greatest m) ∧ n = usual

/-- A value of which is said what it is, or the usual one where there is none. -/
theorem getD_eq_iff {o : Option Nat} {P : Nat → Prop} (h : ∀ n, o = some n ↔ P n) (usual n : Nat) :
    o.getD usual = n ↔ P n ∨ (∀ m, ¬ P m) ∧ n = usual := by
  simp only [← h]
  cases o with
  | none => simp [eq_comm]
  | some m => simp

namespace Environment

variable {env : Environment} {name : String}

/-- The bytes of a text, and no others, set a variable to it. -/
theorem text?_eq_some_iff {s : String} :
    env.text? name = some s ↔ env.lookup name = some (Text.Utf8.encode s) := by
  simp only [text?, Option.bind_eq_some_iff, Text.Utf8.decode?_eq_some_iff, exists_eq_right]

/-- A variable is read as the number up to a limit that it is set to. -/
theorem numeralUpTo?_eq_some_iff {limit n : Nat} :
    (env.text? name).bind (Text.numeralUpTo? limit) = some n ↔
      IsSetTo (env.lookup name) 0 limit n := by
  simp only [Option.bind_eq_some_iff, text?_eq_some_iff, Text.numeralUpTo?,
    Option.filter_eq_some_iff, decide_eq_true_iff, IsSetTo]
  constructor
  · rintro ⟨s, hset, hread, hle⟩
    exact ⟨_, hset, Text.numeral?_iff_spells_encode.mp hread, Nat.zero_le n, hle⟩
  · rintro ⟨bytes, hset, hspells, -, hle⟩
    -- what spells a number is ASCII and so the bytes of a text
    obtain ⟨s, rfl⟩ := Text.Utf8.exists_encode_of_ascii fun b hb =>
      hspells.ascii _ (List.mem_map_of_mem hb)
    exact ⟨s, hset, Text.numeral?_iff_spells_encode.mpr hspells, hle⟩

/-- A variable that is not UTF-8 might as well not be set. -/
theorem text?_filter_ne (h : env.text? name = none) (other : String) :
    Environment.text? (env.filter (·.1 ≠ name)) other = env.text? other := by
  by_cases hother : other = name
  · subst hother
    have hlookup : (env.filter (·.1 ≠ other)).lookup other = none := by
      rw [List.lookup_eq_none_iff]
      intro e he
      have hne : e.1 ≠ other := of_decide_eq_true (List.mem_filter.mp he).2
      simpa using hne.symm
    rw [h, text?, hlookup]
    rfl
  · rw [text?, text?, lookup_filter_ne env hother]

end Environment

/-! ## Configurations -/

namespace Config

variable (env : Environment)

theorem listensPageSize_eq_iff (n : Nat) :
    (ofEnvironment env).listensPageSize = n ↔
      IsChosen (env.lookup "LISTENS_PAGE_SIZE") 1 (2 ^ 64 - 1) 25 n := by
  apply getD_eq_iff
  intro n
  rw [Option.filter_eq_some_iff, Environment.numeralUpTo?_eq_some_iff, decide_eq_true_iff]
  constructor
  · rintro ⟨⟨bytes, hset, hspells, -, hle⟩, hpositive⟩
    exact ⟨bytes, hset, hspells, hpositive, hle⟩
  · rintro ⟨bytes, hset, hspells, hpositive, hle⟩
    exact ⟨⟨bytes, hset, hspells, Nat.zero_le n, hle⟩, hpositive⟩

theorem port_eq_iff (n : Nat) :
    (ofEnvironment env).port = n ↔ IsChosen (env.lookup "PORT") 0 65535 9765 n :=
  getD_eq_iff (fun _ => Environment.numeralUpTo?_eq_some_iff) 9765 n

/-- No environment makes pages empty. -/
theorem listensPageSize_pos : 1 ≤ (ofEnvironment env).listensPageSize := by
  rcases (listensPageSize_eq_iff env _).mp rfl with ⟨-, -, -, hpositive, -⟩ | ⟨-, husual⟩
  · exact hpositive
  · rw [husual]
    decide

/-- A configuration is told by the texts that variables are set to. -/
theorem ofEnvironment_congr {env other : Environment}
    (h : ∀ name, env.text? name = other.text? name) : ofEnvironment env = ofEnvironment other := by
  simp only [ofEnvironment, h]

/-- A variable that is not UTF-8 changes no configuration. -/
theorem ofEnvironment_filter_ne {name : String} {bytes : List UInt8}
    (hset : env.lookup name = some bytes) (hbytes : ∀ s, bytes ≠ Text.Utf8.encode s) :
    ofEnvironment (env.filter (·.1 ≠ name)) = ofEnvironment env := by
  have hnone : env.text? name = none := by
    rw [Option.eq_none_iff_forall_ne_some]
    intro s hs
    rw [Environment.text?_eq_some_iff, hset] at hs
    exact hbytes s (Option.some.inj hs)
  exact ofEnvironment_congr (Environment.text?_filter_ne hnone)

end Config

/-! ## The listens that are asked for -/

/-- As many listens as a page has are asked for, up to a thousand. -/
theorem askedListens_of_pos {count : Nat} (h : 1 ≤ count) :
    Service.askedListens count = min count 1000 := by
  unfold Service.askedListens Service.maxListens
  omega

/-- A server has the client of its configuration. -/
theorem Server.ofConfig_eq_ok_iff {config : Config} {server : Server} :
    Server.ofConfig config = .ok server ↔
      ∃ client, Service.Client.build (some config.serviceUrl) none = .ok client ∧
        server = ⟨config, client.services⟩ := by
  rw [Server.ofConfig, map_eq_ok_iff]
  simp only [eq_comm]

/-- A request without a token is made if it can be sent by the scheme of its address. -/
theorem Service.Client.toOption_prepare (c : Service.Client) (method : Http.Method) (url : Url) :
    ((c.prepare method url none none).toOption.isSome = true ↔
        Service.isSendable url.scheme = true) ∧
      ∀ request, (c.prepare method url none none).toOption = some request → request.url = url := by
  by_cases h : Service.isSendable url.scheme = true
  · rw [Service.Client.prepare_of_fit rfl h]
    refine ⟨iff_of_true rfl h, ?_⟩
    intro request hrequest
    rw [← Option.some.inj hrequest]
  · have hrefused : (c.prepare method url none none).toOption = none := by
      simp only [Service.Client.prepare, Option.all_none, if_true, if_neg h]
      rfl
    rw [hrefused]
    refine ⟨iff_of_false Bool.false_ne_true h, ?_⟩
    intro request hrequest
    exact absurd hrequest (Option.some_ne_none request).symm

/-- How many listens a server asks for, where it can ask at all. -/
theorem exists_handed_recentListens (config : Config) (client : Service.Client) (now : Nat)
    (jar : Option Jar) (userName : String) :
    ∃ listens : Option Http.Request,
      HandsOver (fun responder => Server.recentListens ⟨config, client.services⟩
        ⟨now, jar, responder⟩ userName) listens ∧
      (listens.isSome = true ↔ Service.isSendable client.base.scheme = true) ∧
      ∀ request, listens = some request →
        Service.HasMore ("count=" ++ toString (Service.askedListens config.listensPageSize))
          client.base.query request.url.query := by
  let url := (client.endpoint ["user", userName, "listens"]).addPair "count"
    (toString (Service.askedListens config.listensPageSize))
  have hscheme : url.scheme = client.base.scheme :=
    ((Service.sameSite_extend client.base _).addPair _ _).scheme
  obtain ⟨hsome, hurl⟩ := client.toOption_prepare .get url
  rw [hscheme] at hsome
  refine ⟨(client.recentListens userName config.listensPageSize).handed, ?_, hsome, ?_⟩
  · exact handsOver_ask now jar (client.recentListens userName config.listensPageSize)
  · intro request hrequest
    have hname : "count=" = "count" ++ "=" := by decide
    rw [hurl request hrequest, hname]
    exact Service.hasMore_addPair _ "count" _

/-- **What the environment configures.**  Every environment gives a configuration. Its page size is
the number from one to the greatest of 64 bits that the variable is set to, and twenty-five if it is
set to no such number; its port is the number up to the greatest of 16 bits, or else 9765. A
variable that is not UTF-8 might as well not be set. So the page size is not zero, and whenever a
server asks for listens, which it does if its service can be sent requests, it asks for as many as a
page has, but a thousand at most. -/
theorem config_of_environment (env : Environment) :
    (∀ n, (Config.ofEnvironment env).listensPageSize = n ↔
        IsChosen (env.lookup "LISTENS_PAGE_SIZE") 1 (2 ^ 64 - 1) 25 n) ∧
      (∀ n, (Config.ofEnvironment env).port = n ↔
        IsChosen (env.lookup "PORT") 0 65535 9765 n) ∧
      (∀ name bytes, env.lookup name = some bytes → (∀ s, bytes ≠ Text.Utf8.encode s) →
        Config.ofEnvironment (env.filter (·.1 ≠ name)) = Config.ofEnvironment env) ∧
      (Config.ofEnvironment env).listensPageSize ≠ 0 ∧
      1 ≤ min (Config.ofEnvironment env).listensPageSize 1000 ∧
      min (Config.ofEnvironment env).listensPageSize 1000 ≤ 1000 ∧
      ∀ server, Server.ofConfig (Config.ofEnvironment env) = .ok server →
        ∃ client, Service.Client.build (some (Config.ofEnvironment env).serviceUrl) none =
            .ok client ∧
          ∀ now jar userName, ∃ listens : Option Http.Request,
            HandsOver (fun responder => server.recentListens ⟨now, jar, responder⟩ userName)
              listens ∧
            (listens.isSome = true ↔ Service.isSendable client.base.scheme = true) ∧
            ∀ request, listens = some request →
              Service.HasMore
                ("count=" ++ toString (min (Config.ofEnvironment env).listensPageSize 1000))
                client.base.query request.url.query := by
  have hpositive := Config.listensPageSize_pos env
  refine ⟨Config.listensPageSize_eq_iff env, Config.port_eq_iff env,
    fun _ _ => Config.ofEnvironment_filter_ne env, by omega, by omega, by omega, ?_⟩
  intro server hserver
  obtain ⟨client, hbuild, rfl⟩ := Server.ofConfig_eq_ok_iff.mp hserver
  refine ⟨client, hbuild, ?_⟩
  intro now jar userName
  -- the client's own limits take nothing away but what is above the thousand
  rw [← askedListens_of_pos hpositive]
  exact exists_handed_recentListens _ client now jar userName

/-! ## One environment -/

/-- A page size with a sign and zeros at its front, and a port that is not UTF-8. -/
def oddEnvironment : Environment :=
  [("LISTENS_PAGE_SIZE", Text.Utf8.encode "+0005000"), ("PORT", [0xFF]),
    ("LISTENBRAINZ_URL", Text.Utf8.encode "http://lb.test")]

/-- The page size is taken, the port is the usual one as if it were not set, and a thousand listens
are asked for. -/
theorem config_of_oddEnvironment :
    (Config.ofEnvironment oddEnvironment).listensPageSize = 5000 ∧
      (Config.ofEnvironment oddEnvironment).port = 9765 ∧
      Config.ofEnvironment (oddEnvironment.filter (·.1 ≠ "PORT")) =
        Config.ofEnvironment oddEnvironment ∧
      ∃ server, Server.ofConfig (Config.ofEnvironment oddEnvironment) = .ok server ∧
        ∃ listens : Option Http.Request,
          HandsOver (fun responder => server.recentListens ⟨0, none, responder⟩ "alice") listens ∧
          ∃ request, listens = some request ∧ request.url.query = some "count=1000" := by
  obtain ⟨hsize, hport, hunset, -, -, -, hlistens⟩ := config_of_environment oddEnvironment
  have hbytes : ∀ s, [0xFF] ≠ Text.Utf8.encode s := by
    intro s hs
    have hnone : Text.Utf8.decode? [0xFF] = none := by decide
    rw [Text.Utf8.decode?_eq_some_iff.mpr hs] at hnone
    exact nomatch hnone
  have hset : IsSetTo (oddEnvironment.lookup "LISTENS_PAGE_SIZE") 1 (2 ^ 64 - 1) 5000 :=
    ⟨Text.Utf8.encode "+0005000", rfl,
      ⟨[0x2B], [0x30, 0x30, 0x30, 0x35, 0x30, 0x30, 0x30], Or.inr rfl, by decide, by decide,
        by decide, by decide⟩, by decide, by decide⟩
  have hsizeValue := (hsize 5000).mpr (Or.inl hset)
  refine ⟨hsizeValue, ?_, hunset "PORT" [0xFF] rfl hbytes, ?_⟩
  · refine (hport 9765).mpr (Or.inr ⟨?_, rfl⟩)
    rintro m ⟨bytes, hbytes, hspells, -, -⟩
    obtain rfl : [0xFF] = bytes := Option.some.inj hbytes
    exact absurd (hspells.ascii 0xFF (by simp)) (by decide)
  · have hurl : (Config.ofEnvironment oddEnvironment).serviceUrl = "http://lb.test" := by
      decide +kernel
    have hbuild : Service.Client.build (some (Config.ofEnvironment oddEnvironment).serviceUrl)
        none = .ok Service.plainClient := by
      rw [hurl]
      decide +kernel
    have hserver := Server.ofConfig_of_build hbuild
    obtain ⟨client, hclient, hasks⟩ := hlistens _ hserver
    obtain rfl : client = Service.plainClient := Except.ok.inj (hclient.symm.trans hbuild)
    obtain ⟨listens, hhands, hsome, hcount⟩ := hasks 0 none "alice"
    obtain ⟨request, hrequest⟩ := Option.isSome_iff_exists.mp (hsome.mpr (by decide))
    refine ⟨_, hserver, listens, hhands, request, hrequest, ?_⟩
    have honly : ∀ {pair : String} {query : Option String}, Service.HasMore pair none query →
        query = some pair := by
      rintro _ _ ⟨⟩
      rfl
    have hcounted : "count=" ++ toString (min 5000 1000) = "count=1000" := by decide +kernel
    rw [honly (hcount request hrequest), hsizeValue, hcounted]

end PinBoard
