import Switchboard.Proofs.HandlerChain
import Switchboard.Proofs.Link.Manners

/-! What comes of a frame that arrives. A response is heard, and nothing is written of it but by callbacks, which write
    no responses. A request is served: it goes along its chain, and each time one of its handlers responds, the response
    bears its number. -/

namespace Switchboard

/-- A context's packet, if it can be responded to, goes by the number of a request. -/
def Context.AskedBy (c : Context) (q : Packet) : Prop :=
  c.parcel.command = .request → q.command = .request ∧ c.parcel.session = q.session

namespace Engine

/-- The response that was written. -/
def Deed.reply? (l : Layout) : Deed → Option Packet
  | .respond request content metadata result => request.replied? l metadata content result
  | _ => none

/-- The responses that were written, the earliest first. -/
def replies (l : Layout) (ds : List Deed) : List Packet := ds.filterMap (Deed.reply? l)

variable {f : Framing} {setup : Setup} {inner : Inner} {chain : List Program} {g g' : Stage} {d : Deed} {ds : List Deed}
  {s t : Engine} {q : Packet}

theorem mem_replies {l : Layout} {p : Packet} : p ∈ replies l ds ↔ ∃ r c metadata,
    .respond r (.ok c) metadata (.ok ()) ∈ ds ∧ p = l.borne (r.reply metadata c) := by
  unfold replies
  rw [List.mem_filterMap]
  constructor
  · rintro ⟨d, mem, said⟩
    cases d with
    | respond r content metadata result =>
      rcases content with _ | c
      · cases said
      rcases result with _ | _
      · cases said
      · cases said
        exact ⟨r, c, metadata, mem, rfl⟩
    | _ => cases said
  · rintro ⟨r, c, metadata, mem, rfl⟩
    exact ⟨_, mem, rfl⟩

/-! ### Along the chain -/

/-- Whatever a sincere program does besides, it writes and hears no responses, and goes on sincerely. -/
theorem aside_hushed (hushed : Hushed setup.framing (fun _ => True) inner.close) {p : Program} (sincere : p.Sincere)
    {c : Context} {a : Aside} (first : p.aside? setup inner c = some a) :
    Hushed setup.framing (fun _ => True) a.work ∧ ∀ seen, (a.rest seen).Sincere := by
  cases sincere with
  | done | next | abort | edit | setPeer | respond => cases first
  | look then_ =>
    cases first
    exact ⟨Hushed.get.bind fun _ _ => (record_hushed (e := .looked _) trivial).bind fun _ _ => .pure trivial, fun _ => then_ _⟩
  | close then_ =>
    cases first
    exact ⟨hushed, fun _ => then_⟩
  | notify then_ =>
    cases first
    exact ⟨notify_hushed _, then_⟩
  | callAsync callbacks then_ =>
    cases first
    exact ⟨callAsync_hushed callbacks, then_⟩
  | report then_ =>
    cases first
    exact ⟨record_hushed (e := .event _) trivial, fun _ => then_⟩
  | reportCounts then_ =>
    cases first
    exact ⟨Hushed.get.bind fun _ _ => record_hushed (e := .event _) trivial, fun _ => then_⟩

/-- Handlers that answer what they are given are at work on a request. -/
structure Stage.Earnest (q : Packet) (g : Stage) : Prop where
  plainly : g.engine.Plainly
  sincere : ∀ who rest, .program who rest ∈ g.layers → rest.Sincere
  asked : g.context.AskedBy q

theorem Stage.Earnest.go {who : Option Nat} {p : Program} {below : List Layer} {c c' : Context} {rest : Program}
    (earnest : Stage.Earnest q ⟨.program who p :: below, c, s⟩) (plainly : t.Plainly) (sincere : rest.Sincere)
    (asked : c'.AskedBy q) : Stage.Earnest q ⟨.program who rest :: below, c', t⟩ where
  plainly := plainly
  sincere who' rest' mem := by
    rcases List.mem_cons.mp mem with same | mem
    · cases same
      exact sincere
    · exact earnest.sincere who' rest' (List.mem_cons_of_mem _ mem)
  asked := asked

/-- Each step writes the response of its deed and no other, and the response bears the number of the request. -/
theorem Step.spoke (hushed : Hushed setup.framing (fun _ => True) inner.close)
    (sincere : ∀ handler ∈ chain, handler.Sincere) (step : Step setup inner chain g d g') (earnest : g.Earnest q) :
    Spoke setup.framing g.engine (d.reply? setup.framing.layout).toList [] g'.engine ∧ g'.Earnest q ∧
      ∀ p ∈ d.reply? setup.framing.layout, q.command = .request ∧ p.session = q.session := by
  have plainly := earnest.plainly
  have asked := earnest.asked
  cases step with
  | finish | spare =>
    refine ⟨.refl plainly, ⟨plainly, fun who rest mem => ?_, asked⟩, nofun⟩
    exact earnest.sincere who rest (List.mem_cons_of_mem _ mem)
  | @enter who rest below c s =>
    cases earnest.sincere _ _ List.mem_cons_self with
    | next then_ =>
      have gone : Stage.Earnest q ⟨.program who rest :: below, c.enter, s⟩ := earnest.go plainly then_ asked
      refine ⟨.refl plainly, ⟨plainly, fun who' rest' mem => ?_, asked⟩, nofun⟩
      exact gone.sincere who' rest' ((List.mem_cons.mp mem).resolve_left nofun)
  | abort =>
    cases earnest.sincere _ _ List.mem_cons_self with
    | abort then_ => exact ⟨.refl plainly, earnest.go plainly then_ asked, nofun⟩
  | @edit who change rest below c s =>
    cases earnest.sincere _ _ List.mem_cons_self with
    | edit command session then_ =>
      have asked : (c.edit change).AskedBy q := fun request =>
        ⟨(asked ((command c.parcel.toPacket).symm.trans request)).1, (session c.parcel.toPacket).trans
          (asked ((command c.parcel.toPacket).symm.trans request)).2⟩
      exact ⟨.refl plainly, earnest.go plainly then_ asked, nofun⟩
  | setPeer =>
    cases earnest.sincere _ _ List.mem_cons_self with
    | setPeer then_ => exact ⟨.refl plainly, earnest.go plainly then_ asked, nofun⟩
  | @respond who content metadata rest below c s result t responded =>
    cases earnest.sincere _ _ List.mem_cons_self with
    | respond then_ =>
      obtain ⟨spoke, request⟩ := respond_spoke plainly responded
      refine ⟨spoke, earnest.go spoke.plainly (then_ result) asked, fun p said => ?_⟩
      rcases content with _ | content
      · cases said
      rcases result with _ | _
      · cases said
      · cases said
        -- Only requests are responded to, and the handlers before left number and command as they were.
        obtain ⟨command, session⟩ := asked (request rfl)
        exact ⟨command, (Layout.session_borne _ _).trans session⟩
  | aside first done =>
    -- Only a deed that responds writes a response.
    obtain ⟨work, goes⟩ := aside_hushed hushed (earnest.sincere _ _ List.mem_cons_self) first
    have spoke := (work _ _ _ plainly done).1
    exact ⟨spoke, earnest.go spoke.plainly (goes _) asked, nofun⟩
  | @start handler below c s due =>
    have noted : Spoke setup.framing s [] [] (s.note (.started c.index)) := .note plainly trivial
    refine ⟨noted, ⟨noted.plainly, fun who rest mem => ?_, asked⟩, nofun⟩
    rcases List.mem_cons.mp mem with same | mem
    · cases same
      exact sincere _ (List.mem_of_getElem? due)
    · exact earnest.sincere who rest mem
  | leave =>
    refine ⟨.refl plainly, ⟨plainly, fun who rest mem => ?_, asked⟩, nofun⟩
    refine earnest.sincere who rest (List.mem_cons_of_mem _ ?_)
    split at mem
    · exact (List.mem_cons.mp mem).resolve_left nofun
    · exact mem
  | @release below c s held =>
    have given : Spoke setup.framing s [] []
        { s with issuer := s.issuer.put c.parcel, load := if c.counted then s.load - 1 else s.load } :=
      .of_same plainly rfl rfl rfl rfl
    have spoke := given.hush (.note (e := .released c.parcel.toPacket) given.plainly trivial)
    refine ⟨spoke, ⟨spoke.plainly, fun who rest mem => ?_, nofun⟩, nofun⟩
    exact earnest.sincere who rest (List.mem_cons_of_mem _ mem)
  | @store below c s =>
    have spoke : Spoke setup.framing s [] [] { s with contexts := s.contexts.put c } := .of_same plainly rfl rfl rfl rfl
    refine ⟨spoke, ⟨spoke.plainly, fun who rest mem => ?_, asked⟩, nofun⟩
    exact earnest.sincere who rest (List.mem_cons_of_mem _ mem)

/-- Along its way a request is answered with the responses of its handlers, and with no others. -/
theorem Steps.spoke (hushed : Hushed setup.framing (fun _ => True) inner.close)
    (sincere : ∀ handler ∈ chain, handler.Sincere) (run : Steps setup inner chain g ds g') (earnest : g.Earnest q) :
    Spoke setup.framing g.engine (replies setup.framing.layout ds).reverse [] g'.engine ∧
      ∀ p ∈ replies setup.framing.layout ds, q.command = .request ∧ p.session = q.session := by
  induction run with
  | nil => exact ⟨.refl earnest.plainly, nofun⟩
  | @cons g d g' ds g'' first rest ih =>
    obtain ⟨spoke, earnest', own⟩ := first.spoke hushed sincere earnest
    obtain ⟨spoke', own'⟩ := ih earnest'
    have whole : replies setup.framing.layout (d :: ds) =
        (d.reply? setup.framing.layout).toList ++ replies setup.framing.layout ds := by
      unfold replies
      rw [List.filterMap_cons]
      cases d.reply? setup.framing.layout <;> rfl
    rw [whole]
    refine ⟨?_, fun p mem => ?_⟩
    · -- The journal has the newest first, and the deeds are in the order in which they were done.
      have single : (d.reply? setup.framing.layout).toList.reverse = (d.reply? setup.framing.layout).toList := by
        cases d.reply? setup.framing.layout <;> rfl
      rw [List.reverse_append, single]
      exact spoke.trans spoke'
    · rcases List.mem_append.mp mem with mem | mem
      · exact own p (Option.mem_toList.mp mem)
      · exact own' p mem

theorem earnest_outset (c : Context) (p : Parcel) (plainly : s.Plainly) :
    Stage.Earnest p.toPacket (.outset (.next .done) (c.bind p false) s) where
  plainly := plainly
  sincere who rest mem := by
    have programs : Layer.program who rest = .program none (.next .done) := by simpa [Stage.outset] using mem
    cases programs
    exact .next .done
  asked request := ⟨request, rfl⟩

/-! ### Responses -/

theorem Spoke.hear {e : Entry} {p : Packet} (plainly : s.Plainly)
    (told : e = .unmatched p ∨ ∃ ticket, e = .matched ticket p) : Spoke f s [] [p] (s.note e) where
  journal := by
    refine ⟨[e], rfl, ?_, ?_⟩
    · rcases told with rfl | ⟨ticket, rfl⟩ <;> rfl
    · rcases told with rfl | ⟨ticket, rfl⟩ <;> rfl
  worded worded := by
    refine ⟨⟨?_, fun registered => absurd registered (plainly.rested _ _ _)⟩, worded⟩
    rcases told with rfl | ⟨ticket, rfl⟩ <;> trivial
  plainly := by
    refine ⟨plainly.line, ?_, plainly.pledged, plainly.waited⟩
    rcases told with rfl | ⟨ticket, rfl⟩ <;> nofun

theorem acceptReply_spoke (upright : setup.Upright) (hushed : Hushed setup.framing (fun _ => True) inner.close)
    {p : Parcel} {x : Unit} (response : p.command = .response) (plainly : s.Plainly)
    (h : acceptReply setup inner p s = .ok (x, t)) : Spoke setup.framing s [] [p.toPacket] t := by
  unfold acceptReply at h
  obtain ⟨found, u, htake, h⟩ := bind_eq_ok.mp h
  obtain ⟨hfound, rfl⟩ := takeSession_eq_ok.mp htake
  have taken : Spoke setup.framing s [] [] { s with table := s.table.erase p.session } :=
    .of_journal plainly rfl rfl (fun _ => mem_pledges_of_erase) fun _ => id
  cases found with
  | none =>
    obtain ⟨_, v, hrec, h⟩ := bind_eq_ok.mp h
    obtain rfl := record_eq_ok.mp hrec
    have heard : Spoke setup.framing _ [] [p.toPacket] (note (.unmatched p.toPacket) _) := .hear taken.plainly (.inl rfl)
    exact taken.trans (heard.hush (putParcel_hushed p _ _ _ heard.plainly h).1)
  | some entry =>
    obtain ⟨_, v, hrec, h⟩ := bind_eq_ok.mp h
    obtain rfl := record_eq_ok.mp hrec
    have heard : Spoke setup.framing _ [] [p.toPacket] (note (.matched entry.ticket p.toPacket) _) :=
      .hear taken.plainly (.inr ⟨_, rfl⟩)
    refine taken.trans (heard.hush ?_)
    cases entry with
    | callback pending =>
      have sincere := plainly.pledged pending (mem_pledges.mpr ⟨_, SessionTable.mem_of_find hfound⟩)
      exact (deliver_hushed hushed upright sincere (by simp [response]) _ _ _ heard.plainly h).1
    | waiting ticket listening =>
      cases listening with
      | true =>
        obtain rfl := modify_eq_ok.mp h
        exact .of_same heard.plainly rfl rfl rfl rfl
      | false => exact (putParcel_hushed p _ _ _ heard.plainly h).1

/-! ### Requests -/

/-- A packet went along a chain. -/
def Served (setup : Setup) (depth : Nat) (q : Packet) (chain : List Program) (ds : List Deed) (s t : Engine) : Prop :=
  ∃ (c : Context) (p : Parcel) (u : Engine) (c' : Context), p.toPacket = q ∧
    u.journal = .routed q :: .screened q :: s.journal ∧
    Steps setup (nested setup depth) chain (.outset (.next .done) (c.bind p false) u) ds ⟨[], c', t⟩

/-- What comes of a frame, by the packet that it stands for, and the responses that were written of it. -/
inductive Reception (setup : Setup) (depth : Nat) (s t : Engine) : Option Packet → List Packet → Prop where
  | garbled : Reception setup depth s t none []
  | reply {p : Packet} (response : p.command = .response) : Reception setup depth s t (some p) []
  | unrouted {q : Packet} {fault : Fault} (other : q.command ≠ .response)
      (resolved : setup.router.resolve q = .error fault) : Reception setup depth s t (some q) []
  | served {q : Packet} {chain : List Program} {ds : List Deed} (other : q.command ≠ .response)
      (resolved : setup.router.resolve q = .ok chain) (served : Served setup depth q chain ds s t) :
      Reception setup depth s t (some q) (replies setup.framing.layout ds)

theorem giveBack_hushed (p : Parcel) (result : Except Fault Unit) :
    Hushed f (fun _ => True) (putParcel p >>= fun _ => pure result) :=
  (putParcel_hushed p).bind fun _ _ => .pure trivial

theorem dispatch_spoke (upright : setup.Upright) {depth : Nat} {p : Parcel} {r : Except Fault Unit} {u : Engine}
    (other : p.command ≠ .response) (journal : s.journal = .screened p.toPacket :: u.journal) (plainly : s.Plainly)
    (h : dispatch setup (nested setup depth) p s = .ok (r, t)) :
    ∃ said, Reception setup depth u t (some p.toPacket) said ∧ Spoke setup.framing s said.reverse [] t ∧
      ∀ a ∈ said, p.command = .request ∧ a.session = p.session := by
  have hushed := nested_hushed upright depth
  unfold dispatch at h
  rcases resolved : setup.router.resolve p.toPacket with fault | chain
  · rw [resolved] at h
    exact ⟨[], .unrouted other resolved, (giveBack_hushed p (.error fault) _ _ _ plainly h).1, nofun⟩
  · simp only [resolved] at h
    have light : weigh setup s = .ok (some false, s) := by
      unfold weigh
      rw [upright.unlimited]
      rfl
    rw [bind_of_ok light] at h
    obtain ⟨_, v, hrec, h⟩ := bind_eq_ok.mp h
    obtain rfl := record_eq_ok.mp hrec
    have noted : Spoke setup.framing s [] [] (s.note (.routed p.toPacket)) := .note plainly trivial
    obtain ⟨c, v, htake, h⟩ := bind_eq_ok.mp h
    have taken := noted.hush (takeContext_hushed _ _ _ noted.plainly htake).1
    obtain ⟨-, rfl⟩ := takeContext_eq_ok.mp htake
    obtain ⟨_, w, hdrive, h⟩ := bind_eq_ok.mp h
    obtain ⟨-, rfl⟩ := pure_eq_ok.mp h
    have short : chain.length ≤ abortIndex := Nat.le_of_lt (upright.short resolved)
    have attached : (c.bind p false).setPeer setup.peer = (c.setPeer setup.peer).bind p false := rfl
    rw [attached, drive_next] at hdrive
    obtain ⟨c', ds, run⟩ := (drive_eq_ok_iff short (.next .done) (.inr (.inl rfl))).mp hdrive
    obtain ⟨spoke, own⟩ := Steps.spoke hushed (upright.sincere resolved) run (earnest_outset _ p taken.plainly)
    refine ⟨replies setup.framing.layout ds, .served other resolved ⟨_, p, _, c', rfl, ?_, run⟩, ?_, own⟩
    · exact congrArg (_ :: ·) journal
    · have said := taken.trans spoke
      rwa [List.append_nil] at said

/-- Of a frame that arrives, the response that it stands for is heard, if it stands for one, and responses are written
    only by the handlers of the request that it stands for, under its number. -/
theorem receiveWith_spoke (upright : setup.Upright) {depth : Nat} {frame : Bytes} {r : Except Fault Unit}
    (plainly : s.Plainly) (h : receiveWith setup (nested setup depth) frame s = .ok (r, t)) :
    ∃ said, Reception setup depth s t (setup.framing.packet? frame) said ∧
      Spoke setup.framing s said.reverse (setup.framing.response? frame).toList t ∧
      ∀ a ∈ said, ∃ q, setup.framing.request? frame = some q ∧ a.session = q.session := by
  have hushed := nested_hushed upright depth
  unfold receiveWith at h
  have passed : filterData [] frame s = .ok (.ok (some frame), s) := rfl
  rw [upright.dataFilters, bind_of_ok passed] at h
  dsimp only at h
  obtain ⟨p, u, htake, h⟩ := bind_eq_ok.mp h
  have taken := (takeParcel_hushed (f := setup.framing) _ _ _ plainly htake).1
  obtain ⟨-, rfl⟩ := takeParcel_eq_ok.mp htake
  unfold Parcel.unframe at h
  unfold Framing.request? Framing.response? Framing.packet?
  rcases decoded : setup.framing.decode frame with fault | q
  · simp only [decoded] at h
    exact ⟨[], .garbled, taken.hush (giveBack_hushed p (.error fault) _ _ _ taken.plainly h).1, nofun⟩
  · simp only [decoded] at h
    unfold welcome intercept at h
    rw [upright.hook] at h
    dsimp only at h
    by_cases response : q.command = .response
    · rw [if_pos response] at h
      simp only [bind_assoc, pure_bind] at h
      obtain ⟨_, v, haccept, h⟩ := bind_eq_ok.mp h
      obtain ⟨-, rfl⟩ := pure_eq_ok.mp h
      have heard := acceptReply_spoke upright hushed (p := { toPacket := q, scratch := p.scratch }) response taken.plainly
        haccept
      refine ⟨[], .reply response, ?_, nofun⟩
      simpa [Except.toOption, Option.filter_some, response] using taken.trans heard
    · rw [if_neg response] at h
      simp only [pure_bind] at h
      obtain ⟨_, v, hrec, h⟩ := bind_eq_ok.mp h
      obtain rfl := record_eq_ok.mp hrec
      have screened : Spoke setup.framing _ [] [] (note (.screened q) _) := .note taken.plainly trivial
      rw [upright.packetFilters] at h
      simp only [filterPacket, pure_bind] at h
      obtain ⟨said, reception, spoke, own⟩ := dispatch_spoke (u := s) (p := { toPacket := q, scratch := p.scratch })
        upright response rfl screened.plainly h
      refine ⟨said, reception, ?_, fun a mem => ⟨q, ?_, (own a mem).2⟩⟩
      · simpa [Except.toOption, Option.filter_some, response] using (taken.hush screened).trans spoke
      · simpa [Except.toOption, Option.filter_some] using (own a mem).1

end Engine
end Switchboard
