import AnonyMus.Lib.Keyset
import AnonyMus.P2p.Messages

/-!
# P2P node — a walk through a conversation

`message_history` from the first page on, each time with the cursor of the last
page, until a page is empty or comes without a cursor. The handler leaves a cursor in
`request.state` and has a middleware send it as a header, which there is none of. The
cursor names the time and the id of the last message, but only messages of an earlier time
follow.

* `noHeader`, `walk` — what of the cursor a response carries, and a walk;
* `decodeCursor_encodeCursor` — the time of a cursor is read back;
* `walk_sound`, `walk_total` — with the cursor, the walk is one of `Keyset`, and it ends;
* `pagingComplete_iff` — without it, a walk returns the conversation exactly when it is one page;
* `cursorPaging_iff` — with it, every message comes once exactly when no page ends between two
  messages of one time.
-/

namespace AnonyMus.P2p

/-! ## Cursors -/

/-- `datetime.fromisoformat` reads what `isoformat` writes. -/
def Runtime.ReadsIso (R : Runtime) : Prop :=
  ∀ d : DateTime, R.fromIsoformat (String.ofList d.isoformat) = some ⟨d, none⟩

/-- A character of the URL-safe alphabet for one of the standard one, and back. -/
theorem b64Char_of_urlsafe (v : ℕ) :
    (fun c => if c = '-' then '+' else if c = '_' then '/' else c)
      (if b64Char v = '+' then '-' else if b64Char v = '/' then '_' else b64Char v) = b64Char v := by
  by_cases hv : v < 64
  · revert v
    decide +kernel
  · rw [b64Char, List.getElem?_eq_none (Nat.le_of_not_lt hv)]
    decide

theorem mem_b64encode {data : List UInt8} {c : Char} (hc : c ∈ b64encode data) :
    c = '=' ∨ ∃ v, c = b64Char v := by
  fun_induction b64encode data with
  | case1 => cases hc
  | case2 => grind
  | case3 => grind
  | case4 a b c rest ih => grind

theorem urlsafeB64decode_encode (data : List UInt8) :
    urlsafeB64decode (urlsafeB64encode data) = some data := by
  unfold urlsafeB64decode urlsafeB64encode
  have hback : ∀ c ∈ b64encode data, ((fun c => if c = '-' then '+' else if c = '_' then '/' else c) ∘
      fun c => if c = '+' then '-' else if c = '/' then '_' else c) c = id c := by
    intro c hc
    rcases mem_b64encode hc with rfl | ⟨v, rfl⟩
    · rfl
    · exact b64Char_of_urlsafe v
  rw [List.map_map, List.map_congr_left hback, List.map_id, Python.b64decode_b64encode]
  rfl

theorem beforeBars_append {text : List Char} (h : '|' ∉ text) (rest : List Char) :
    beforeBars (text ++ '|' :: '|' :: rest) = text := by
  induction text with
  | nil => rfl
  | cons c text ih =>
    obtain ⟨hc, htext⟩ := List.ne_and_not_mem_of_not_mem_cons h
    rw [List.cons_append, beforeBars, ih htext]
    rintro _ rfl
    exact absurd rfl hc

/-- The time of a cursor is read back. -/
theorem decodeCursor_encodeCursor {R : Runtime} (hR : R.ReadsIso) (sentAt : DateTime)
    (messageId : String) : decodeCursor R (encodeCursor sentAt messageId) = some ⟨sentAt, none⟩ := by
  have hbars : '|' ∉ sentAt.isoformat := by
    intro hmem
    rcases DateTime.mem_isoformat hmem with h | h
    · exact absurd h (by decide)
    · exact absurd h (by decide)
  unfold decodeCursor encodeCursor
  rw [String.toList_ofList, urlsafeB64decode_encode, Option.bind_eq_bind, Option.bind_some,
    Python.decodeUtf8_toUTF8]
  show R.fromIsoformat (String.ofList (beforeBars (String.ofList _).toList)) = _
  rw [String.toList_ofList, List.append_assoc]
  show R.fromIsoformat (String.ofList (beforeBars (sentAt.isoformat ++ '|' :: '|' :: _))) = _
  rw [beforeBars_append hbars, hR]

theorem encodeCursor_ne (sentAt : DateTime) (messageId : String) :
    encodeCursor sentAt messageId ≠ "" := by
  unfold encodeCursor
  generalize htext : sentAt.isoformat ++ "||".toList ++ messageId.toList = text
  intro hempty
  -- no text gives an empty cursor but the empty one
  have hdata : (String.ofList text).toUTF8.toList = [] := by
    rw [← b64encode_eq_nil_iff, ← List.map_eq_nil_iff]
    exact String.ofList_injective hempty
  have hread := Python.decodeUtf8_toUTF8 (String.ofList text)
  rw [hdata, show Python.decodeUtf8 [] = .ok "" by rfl] at hread
  rw [← String.ofList_injective (Except.ok.inj hread)] at htext
  simp at htext

theorem cursorSentAt_encodeCursor {R : Runtime} (hR : R.ReadsIso) (n : Node) (oldest : Row) :
    cursorSentAt R n none (some (encodeCursor oldest.2.sentAt oldest.1)) =
      .ok (some oldest.2.sentAt) := by
  unfold cursorSentAt
  rw [truthy_of_ne (encodeCursor_ne _ _)]
  dsimp only
  rw [decodeCursor_encodeCursor hR]

/-! ## Walks -/

/-- What a response carries of the cursor in `request.state.next_cursor`: nothing reads it. -/
def noHeader : Option String → Option String := fun _ => none

/-- The messages of the walk from a cursor on: pages until one is empty or comes without a cursor,
which is among the first `fuel`. The database visits the rows in the order `scans i` for page
`i`. -/
def walk (header : Option String → Option String) (R : Runtime) (caller : Caller)
    (peerOnion : String) (limit : ℤ) :
    (fuel : ℕ) → (scans : ℕ → List Row → List Row) → (cursor : Option String) → Node →
      Option (List Row)
  | 0, _, _, _ => none
  | fuel + 1, scans, cursor, n =>
    match messageHistory R (scans 0) caller peerOnion limit none cursor n with
    | .error _ _ => none
    | .ok (page, next) n' =>
      if page = [] then some []
      else
        match header next with
        | none => some page
        | some cursor =>
          (walk header R caller peerOnion limit fuel (fun i => scans (i + 1)) (some cursor) n').map
            (page ++ ·)

/-- The messages between the user and the peer. -/
def conversation (user : User) (peerOnion : String) (n : Node) : List Row :=
  n.messages.entries.filter (inConversation user.onionAddress peerOnion)

/-- The walk ends, and returns every message of the conversation once, none before a later one. -/
def PagingComplete (header : Option String → Option String) (R : Runtime) (caller : Caller)
    (user : User) (peerOnion : String) (limit : ℤ) (scans : ℕ → List Row → List Row) (n : Node) :
    Prop :=
  ∃ fuel rows, walk header R caller peerOnion limit fuel scans none n = some rows ∧
    rows.Perm (conversation user peerOnion n) ∧
    rows.Pairwise fun r r' => r'.2.sentAt ≤ r.2.sentAt

/-- The times of the conversation, the latest first. -/
def conversationTimes (user : User) (peerOnion : String) (n : Node) : List DateTime :=
  (orderDesc (conversation user peerOnion n)).map fun row => row.2.sentAt

section

variable {header : Option String → Option String} {R : Runtime} {caller : Caller} {user : User}
  {peerOnion : String} {limit : ℤ}
  {scans : ℕ → List Row → List Row} {cursor : Option String} {sentAt : Option DateTime} {n : Node}
  {fuel : ℕ} {rows : List Row}

/-- The key of `Keyset`. -/
def sentRank (row : Row) : ℕ := row.2.sentAt.rank

theorem descending_orderDesc (rows : List Row) : Keyset.Descending sentRank (orderDesc rows) := by
  have : Std.Total fun r r' : Row => r'.2.sentAt ≤ r.2.sentAt :=
    ⟨fun r r' => Nat.le_total r'.2.sentAt.rank r.2.sentAt.rank⟩
  have : IsTrans Row fun r r' => r'.2.sentAt ≤ r.2.sentAt :=
    ⟨fun _ _ _ h h' => Nat.le_trans h' h⟩
  exact List.pairwise_insertionSort _ rows

/-- A page of the endpoint is a page of the conversation below the cursor. -/
theorem isPage_historyPage {scan : List Row → List Row} (hscan : ∀ rows, (scan rows).Perm rows)
    (limit : ℕ) (sentAt : Option DateTime) :
    Keyset.IsPage sentRank limit
      (Keyset.under sentRank (sentAt.map DateTime.rank) (conversation user peerOnion n))
      (historyPage (scan n.messages.entries) user.onionAddress peerOnion limit sentAt) := by
  refine (Keyset.IsPage.take (descending_orderDesc _) (List.perm_insertionSort _ _)).of_perm ?_
  unfold conversation Keyset.under
  rw [List.filter_filter]
  have hfilter : ∀ row : Row,
      (inConversation user.onionAddress peerOnion row && sentAt.all fun d => row.2.sentAt < d) =
        ((sentAt.map DateTime.rank).all (fun k => sentRank row < k) &&
          inConversation user.onionAddress peerOnion row) := by
    intro row
    rw [Bool.and_comm]
    rcases sentAt with _ | d <;> rfl
  simp only [hfilter]
  exact (hscan _).filter _

theorem walk_succ (hlimit : 1 ≤ limit ∧ limit ≤ 200)
    (huser : getCurrentUser caller n = .ok user n)
    (hcursor : cursorSentAt R n none cursor = .ok sentAt) :
    walk header R caller peerOnion limit (fuel + 1) scans cursor n =
      let page := historyPage (scans 0 n.messages.entries) user.onionAddress peerOnion limit.toNat
        sentAt
      if page = [] then some []
      else
        match header (page.getLast?.map fun oldest => encodeCursor oldest.2.sentAt oldest.1) with
        | none => some page
        | some cursor =>
          (walk header R caller peerOnion limit fuel (fun i => scans (i + 1)) (some cursor) n).map
            (page ++ ·) := by
  rw [walk, messageHistory_apply _ hlimit huser hcursor]

/-- What a walk returns is a walk of `Keyset`. -/
theorem walk_sound (hR : R.ReadsIso) (hlimit : 1 ≤ limit ∧ limit ≤ 200)
    (hscans : ∀ i rows, (scans i rows).Perm rows) (huser : getCurrentUser caller n = .ok user n)
    (hcursor : cursorSentAt R n none cursor = .ok sentAt)
    (hwalk : walk id R caller peerOnion limit fuel scans cursor n = some rows) :
    Keyset.Walk sentRank limit.toNat (conversation user peerOnion n) (sentAt.map DateTime.rank)
      rows := by
  induction fuel generalizing scans cursor sentAt rows with
  | zero => cases hwalk
  | succ fuel ih =>
    rw [walk_succ hlimit huser hcursor] at hwalk
    have hpage := @isPage_historyPage user peerOnion n _ (hscans 0) limit.toNat sentAt
    generalize historyPage (scans 0 n.messages.entries) user.onionAddress peerOnion limit.toNat
      sentAt = page at hwalk hpage
    dsimp only at hwalk
    split_ifs at hwalk with hempty
    · obtain rfl := Option.some.inj hwalk
      exact .last (hempty ▸ hpage)
    · rcases holdest : page.getLast? with _ | oldest
      · exact absurd (List.getLast?_eq_none_iff.mp holdest) hempty
      rw [holdest, Option.map_some] at hwalk
      obtain ⟨later, hlater, rfl⟩ := Option.map_eq_some_iff.mp hwalk
      exact .next hpage holdest (ih (fun i => hscans (i + 1)) (cursorSentAt_encodeCursor hR n oldest)
        hlater)

/-- A walk ends after at most one page more than there are messages. -/
theorem walk_total (hR : R.ReadsIso) (hlimit : 1 ≤ limit ∧ limit ≤ 200)
    (hscans : ∀ i rows, (scans i rows).Perm rows) (huser : getCurrentUser caller n = .ok user n)
    (hcursor : cursorSentAt R n none cursor = .ok sentAt)
    (hfuel : (Keyset.under sentRank (sentAt.map DateTime.rank)
      (conversation user peerOnion n)).length < fuel) :
    ∃ rows, walk id R caller peerOnion limit fuel scans cursor n = some rows := by
  induction fuel generalizing scans cursor sentAt with
  | zero => exact absurd hfuel (Nat.not_lt_zero _)
  | succ fuel ih =>
    rw [walk_succ hlimit huser hcursor]
    have hpage := @isPage_historyPage user peerOnion n _ (hscans 0) limit.toNat sentAt
    generalize historyPage (scans 0 n.messages.entries) user.onionAddress peerOnion limit.toNat
      sentAt = page at hpage
    dsimp only
    split_ifs with hempty
    · exact ⟨[], rfl⟩
    rcases holdest : page.getLast? with _ | oldest
    · exact absurd (List.getLast?_eq_none_iff.mp holdest) hempty
    -- fewer messages are left
    have hfewer := Keyset.length_under_lt hpage holdest
    obtain ⟨later, hlater⟩ := ih (fun i => hscans (i + 1)) (cursorSentAt_encodeCursor hR n oldest)
      (by change (Keyset.under sentRank (some (sentRank oldest)) _).length < fuel; omega)
    refine ⟨page ++ later, ?_⟩
    rw [Option.map_some]
    show (walk id R caller peerOnion limit fuel _ (some _) n).map (page ++ ·) = _
    rw [hlater]
    rfl

theorem separated_map_rank {times : List DateTime} {limit : ℕ} :
    Keyset.Separated limit (times.map DateTime.rank) ↔ Keyset.Separated limit times := by
  unfold Keyset.Separated
  refine forall₂_congr fun k _ => ?_
  constructor
  · rintro hsep t ⟨hlast, hnext⟩
    refine hsep t.rank ⟨?_, ?_⟩
    · rw [List.getElem?_map, hlast, Option.map_some]
    · rw [List.getElem?_map, hnext, Option.map_some]
  · rintro hsep rank ⟨hlast, hnext⟩
    rw [List.getElem?_map, Option.map_eq_some_iff] at hlast hnext
    obtain ⟨t, hlast, rfl⟩ := hlast
    obtain ⟨t', hnext, hrank⟩ := hnext
    exact hsep t ⟨hlast, DateTime.rank_injective hrank ▸ hnext⟩

end

/-- No response carries a cursor, so that paging returns the conversation exactly when it fits on
one page. -/
theorem pagingComplete_iff (R : Runtime) {caller : Caller} {user : User} {n : Node}
    (huser : getCurrentUser caller n = .ok user n) (peerOnion : String) {limit : ℤ}
    (hlimit : 1 ≤ limit ∧ limit ≤ 200) {scans : ℕ → List Row → List Row}
    (hscans : ∀ i rows, (scans i rows).Perm rows) :
    PagingComplete noHeader R caller user peerOnion limit scans n ↔
      (conversation user peerOnion n).length ≤ limit.toNat := by
  have hpage := @isPage_historyPage user peerOnion n _ (hscans 0) limit.toNat none
  rw [Option.map_none, Keyset.under_none] at hpage
  -- every walk ends with its first page
  have hwalk : ∀ fuel, walk noHeader R caller peerOnion limit (fuel + 1) scans none n =
      some (historyPage (scans 0 n.messages.entries) user.onionAddress peerOnion limit.toNat
        none) := by
    intro fuel
    rw [walk_succ hlimit huser rfl]
    dsimp only [noHeader]
    split_ifs with hempty
    · rw [hempty]
    · rfl
  generalize historyPage (scans 0 n.messages.entries) user.onionAddress peerOnion limit.toNat
    none = page at hpage hwalk
  constructor
  · rintro ⟨fuel, rows, hrows, hperm, -⟩
    rcases fuel with _ | fuel
    · cases hrows
    · obtain rfl := Option.some.inj ((hwalk fuel).symm.trans hrows)
      obtain ⟨-, -, -, hlength⟩ := hpage
      rw [← hperm.length_eq, hlength]
      exact Nat.min_le_left _ _
  · intro hlength
    exact ⟨1, page, hwalk 0, hpage.perm hlength, hpage.descending⟩

/-- With the cursor in its response, paging returns every message of the conversation once, in
order, exactly when no page ends between two messages of one time. -/
theorem cursorPaging_iff {R : Runtime} (hR : R.ReadsIso) {caller : Caller} {user : User} {n : Node}
    (huser : getCurrentUser caller n = .ok user n) (peerOnion : String) {limit : ℤ}
    (hlimit : 1 ≤ limit ∧ limit ≤ 200) {scans : ℕ → List Row → List Row}
    (hscans : ∀ i rows, (scans i rows).Perm rows) :
    PagingComplete id R caller user peerOnion limit scans n ↔
      Keyset.Separated limit.toNat (conversationTimes user peerOnion n) := by
  have hfirst : cursorSentAt R n none none = .ok none := rfl
  have hpos : 0 < limit.toNat := by omega
  -- the times of the conversation are its sorted keys
  have hkeys : ((conversationTimes user peerOnion n).map DateTime.rank).Perm
      ((Keyset.under sentRank none (conversation user peerOnion n)).map sentRank) := by
    rw [Keyset.under_none, conversationTimes, List.map_map]
    exact (List.perm_insertionSort _ _).map sentRank
  have hsorted : ((conversationTimes user peerOnion n).map DateTime.rank).Pairwise (· ≥ ·) := by
    rw [conversationTimes, List.map_map]
    exact List.pairwise_map.mpr (descending_orderDesc _)
  rw [← separated_map_rank]
  constructor
  · rintro ⟨fuel, rows, hwalk, hperm, -⟩
    have hsound := walk_sound hR hlimit hscans huser hfirst hwalk
    rw [Option.map_none] at hsound
    rwa [← hsound.perm_iff hpos hkeys hsorted, Keyset.under_none]
  · intro hsep
    obtain ⟨rows, hwalk⟩ : ∃ rows, walk id R caller peerOnion limit _ scans none n = some rows :=
      walk_total hR hlimit hscans huser hfirst (Nat.lt_succ_self _)
    have hsound := walk_sound hR hlimit hscans huser hfirst hwalk
    rw [Option.map_none] at hsound
    refine ⟨_, rows, hwalk, ?_, hsound.descending.1⟩
    have hperm := (hsound.perm_iff hpos hkeys hsorted).mpr hsep
    rwa [Keyset.under_none] at hperm

/-! ## Two messages -/

/-- A runtime that reads the ISO text of times without an offset. -/
def isoRuntime : Runtime :=
  { asciiRuntime with
    fromIsoformat := fun text => (DateTime.ofIsoformat text.toList).map fun d => ⟨d, none⟩ }

theorem isoRuntime_readsIso : isoRuntime.ReadsIso := by
  intro d
  have hread : ∀ text, isoRuntime.fromIsoformat text =
      (DateTime.ofIsoformat text.toList).map fun d => ⟨d, none⟩ := fun _ => rfl
  rw [hread, String.toList_ofList, DateTime.ofIsoformat_isoformat, Option.map_some]

def carol : User := ⟨"carol", some "cccccccccccccccc.onion"⟩

def daveOnion : String := "dddddddddddddddd.onion"

def onTheHour (hour : Fin 24) : DateTime where
  year        := 2026
  month       := 7
  day         := 21
  hour        := hour
  minute      := 0
  second      := 0
  microsecond := 0
  date        := by decide
  time        := ⟨hour.2, by decide⟩

def fromDave (sentAt : DateTime) : Message where
  senderOnion    := daveOnion
  recipientOnion := "cccccccccccccccc.onion"
  ciphertextB64  := "Y3Q="
  ivB64          := "aXY="
  sequenceNumber := 1
  sentAt         := sentAt
  delivered      := true
  disappearsAt   := none
  isDeleted      := false
  sealedSender   := none

/-- Carol has two messages from Dave. -/
def carolsNode (sentAt sentAt' : DateTime) : Node where
  users    := [carol]
  profiles := ["default"]
  contacts := .empty
  messages := Dict.empty.insert "m1" (fromDave sentAt) |>.insert "m2" (fromDave sentAt')
  bundles  := .empty
  notices  := []
  tasks    := []

/-- Both of them come on a page of two. -/
theorem two_messages_paged : PagingComplete noHeader isoRuntime ⟨some "carol", "default"⟩ carol
    daveOnion 2 (fun _ => List.reverse) (carolsNode (onTheHour 9) (onTheHour 9)) := by
  refine (pagingComplete_iff isoRuntime rfl daveOnion (by decide)
    (fun _ => List.reverse_perm)).mpr ?_
  decide +kernel

/-- On a page of one, one of them comes, and no cursor. -/
theorem two_messages_cut : ¬ PagingComplete noHeader isoRuntime ⟨some "carol", "default"⟩ carol
    daveOnion 1 (fun _ => List.reverse) (carolsNode (onTheHour 9) (onTheHour 10)) := by
  rintro ⟨fuel, rows, hwalk, hperm, -⟩
  rcases fuel with _ | fuel
  · cases hwalk
  have hpage : historyPage (carolsNode (onTheHour 9) (onTheHour 10)).messages.entries.reverse
      carol.onionAddress daveOnion (Int.toNat 1) none = [("m2", fromDave (onTheHour 10))] := by
    decide +kernel
  rw [walk_succ (by decide) rfl rfl] at hwalk
  dsimp only [noHeader] at hwalk
  rw [hpage, if_neg (List.cons_ne_nil _ _)] at hwalk
  obtain rfl := Option.some.inj hwalk
  exact absurd hperm.length_eq (by decide +kernel)

/-- With cursors, messages of different times are read one by one. -/
theorem two_times_paged : PagingComplete id isoRuntime ⟨some "carol", "default"⟩ carol daveOnion 1
    (fun _ => List.reverse) (carolsNode (onTheHour 9) (onTheHour 10)) := by
  refine (cursorPaging_iff isoRuntime_readsIso rfl daveOnion (by decide)
    (fun _ => List.reverse_perm)).mpr ?_
  have htimes : conversationTimes carol daveOnion (carolsNode (onTheHour 9) (onTheHour 10)) =
      [onTheHour 10] ++ [onTheHour 9] := by decide +kernel
  rw [htimes, show (1 : ℤ).toNat = 1 from rfl, Keyset.separated_append (by rfl) Nat.one_pos]
  refine ⟨?_, Keyset.separated_of_length_le le_rfl⟩
  rintro t ⟨hlast, hnext⟩
  exact absurd (hlast.trans hnext.symm) (by decide +kernel)

end AnonyMus.P2p
