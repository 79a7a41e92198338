import AnonyMus.Lib.Simulation
import AnonyMus.Web.History

/-!
# Web client — sequence numbers

The number of a direct message is the length of the list in memory when
`sendMessage` begins. The calls are cut where they touch the lists, so that they
may overlap: `sendMessage` reads the list at its start and writes it at its end.

* `Tab`, `TabEvent.step` — the lists, and the calls under way;
* `Acceptable` — the numbers of a conversation grow, and no node refuses one;
* `Kept` — the list of a conversation does not fall behind its numbers;
* `acceptable_of_kept` — the numbers are then acceptable;
* `lists_of_run` — a run of whole calls is a run of their parts.
-/

namespace AnonyMus.Web

open EStateM

/-! ## Calls and lists -/

/-- A call of `sendMessage` that has not returned: what it has read, and whether the node has taken
its message. -/
structure SendCall where
  onion     : String
  plaintext : String
  existing  : List UiMessage
  posted    : Bool

/-- The lists in memory, the calls under way by their order, and the numbers that have been attached
to messages. -/
structure Tab where
  messageMap : Dict String (List UiMessage)
  calls      : Dict ℕ SendCall
  attached   : List (String × ℕ)
  /-- Conversations with attached numbers that have not been loaded since the page was. -/
  stale      : List String

inductive TabEvent
  /-- `sendMessage` reads the list; an identifier is used for one call at a time. -/
  | begin (id : ℕ) (onion plaintext : String)
  /-- The node takes the message that the call gives to `api.send`. -/
  | post (id : ℕ)
  /-- The node has answered a posted call. -/
  | answer (id : ℕ) (msg : UiMessage)
  /-- The call ends with an error. -/
  | fail (id : ℕ)
  /-- `receiveMessage` shows a message. -/
  | add (onion : String) (msg : UiMessage)
  /-- `loadMessages` ends with these messages, or with none if the request has failed. -/
  | load (onion : String) (shown : Option (List UiMessage))
  /-- The page is loaded anew, which ends its calls. -/
  | reload

namespace Tab

def list (onion : String) (tab : Tab) : List UiMessage := (tab.messageMap.get? onion).getD []

/-- The numbers attached in a conversation, in order. -/
def numbers (onion : String) (tab : Tab) : List ℕ :=
  (tab.attached.filter (·.1 = onion)).map (·.2)

def setList (onion : String) (msgs : List UiMessage) (tab : Tab) : Tab :=
  { tab with messageMap := tab.messageMap.insert onion msgs }

/-- The call returns. -/
def finish (id : ℕ) (tab : Tab) : Tab := { tab with calls := tab.calls.erase id }

end Tab

namespace TabEvent

variable (B : Browser)

def step : TabEvent → Tab → Tab
  | begin id onion plaintext, tab =>
    match tab.calls.get? id with
    | none => { tab with calls := tab.calls.insert id ⟨onion, plaintext, tab.list onion, false⟩ }
    | some _ => tab
  | post id, tab =>
    match tab.calls.get? id with
    | some call =>
      if call.posted then tab
      else
        { tab with
          calls    := tab.calls.insert id { call with posted := true }
          attached := tab.attached ++ [(call.onion, call.existing.length)] }
    | none => tab
  | answer id msg, tab =>
    match tab.calls.get? id with
    | some call =>
      if call.posted then
        match withSent B call.existing msg call.plaintext with
        | some msgs => (tab.setList call.onion msgs).finish id
        | none => tab.finish id
      else tab
    | none => tab
  | fail id, tab => tab.finish id
  | add onion msg, tab => tab.setList onion (tab.list onion ++ [msg])
  | load onion shown, tab =>
    { tab.setList onion (shown.getD []) with stale := tab.stale.filter (· ≠ onion) }
  | reload, tab =>
    { tab with
      messageMap := Dict.empty
      calls      := Dict.empty
      stale      := tab.attached.map (·.1) }

/-- The event as an action that cannot fail. -/
def run (e : TabEvent) : EStateM Empty Tab Unit := modify (e.step B)

@[simp] theorem run_state (e : TabEvent) (tab : Tab) : (e.run B tab).state = e.step B tab := rfl

end TabEvent

/-! ## What is to hold -/

/-- `p2p_message` refuses a number that is not above the largest one stored. -/
def refuses (stored : List ℕ) (seq : ℕ) : Bool := stored.max?.any fun last => seq ≤ last

/-- The numbers that a node refuses of those that reach it; it stores the others. -/
def refused : List ℕ → List ℕ → List ℕ
  | _, [] => []
  | stored, seq :: rest =>
    if refuses stored seq then seq :: refused stored rest else refused (stored ++ [seq]) rest

/-- The numbers of each conversation grow, and the node of the contact refuses none of those that
reach it. -/
structure Acceptable (tab : Tab) : Prop where
  increasing : ∀ onion, (tab.numbers onion).Pairwise (· < ·)
  accepted   : ∀ onion reaching, reaching.Sublist (tab.numbers onion) → refused [] reaching = []

/-- A step lets no list fall behind the numbers of its conversation: calls of one conversation do
not overlap, and do not begin on a list that the page has not loaded; a load shows more messages
than the numbers have come to; and when a call of which the node has taken the message writes
nothing, the list has grown meanwhile. -/
def Kept (B : Browser) : TabEvent → Tab → Prop
  | .begin _ onion _, tab =>
    onion ∉ tab.stale ∧ ∀ id call, tab.calls.get? id = some call → call.onion ≠ onion
  | .load onion shown, tab => ∀ n ∈ tab.numbers onion, n < (shown.getD []).length
  | .answer id _, tab => ∀ call, tab.calls.get? id = some call →
    call.posted → B.btoa call.plaintext = none →
      call.existing.length < (tab.list call.onion).length
  | .fail id, tab => ∀ call, tab.calls.get? id = some call →
    call.posted → call.existing.length < (tab.list call.onion).length
  | _, _ => True

/-! ## One step -/

/-- The list of a conversation is ahead of its numbers, but for a call that the node has taken the
message of; and there is at most one call. -/
structure Fits (tab : Tab) (o : String) : Prop where
  increasing : (tab.numbers o).Pairwise (· < ·)
  single     : ∀ i j call call', tab.calls.get? i = some call → tab.calls.get? j = some call' →
    call.onion = o → call'.onion = o → i = j
  waiting    : ∀ i call, tab.calls.get? i = some call → call.onion = o → call.posted = false →
    ∀ n ∈ tab.numbers o, n < call.existing.length
  taken      : ∀ i call, tab.calls.get? i = some call → call.onion = o → call.posted = true →
    ∀ n ∈ tab.numbers o, n ≤ call.existing.length
  covered    : o ∉ tab.stale →
    (∀ i call, tab.calls.get? i = some call → call.onion = o → call.posted = false) →
      ∀ n ∈ tab.numbers o, n < (tab.list o).length

section

variable {B : Browser} {tab tab' : Tab} {o onion plaintext : String} {id : ℕ} {call : SendCall}
  {msg : UiMessage} {shown : Option (List UiMessage)}

theorem list_setList (msgs : List UiMessage) :
    (tab.setList onion msgs).list o = if o = onion then msgs else tab.list o := by
  unfold Tab.setList Tab.list
  dsimp only
  rw [Dict.get?_insert]
  split_ifs
  · rfl
  · rfl

/-- A step that shortens no list of the conversation and leaves its calls and numbers alone. -/
theorem Fits.mono (h : Fits tab o) (hnumbers : tab'.numbers o = tab.numbers o)
    (hcalls : ∀ i call, call.onion = o →
      (tab'.calls.get? i = some call ↔ tab.calls.get? i = some call))
    (hlist : (tab.list o).length ≤ (tab'.list o).length) (hstale : o ∉ tab'.stale → o ∉ tab.stale) :
    Fits tab' o where
  increasing := by
    rw [hnumbers]
    exact h.increasing
  single i j call call' hi hj ho ho' :=
    h.single i j call call' ((hcalls i call ho).mp hi) ((hcalls j call' ho').mp hj) ho ho'
  waiting i call hi ho hposted := by
    rw [hnumbers]
    exact h.waiting i call ((hcalls i call ho).mp hi) ho hposted
  taken i call hi ho hposted := by
    rw [hnumbers]
    exact h.taken i call ((hcalls i call ho).mp hi) ho hposted
  covered hfresh hunposted n hn := by
    rw [hnumbers] at hn
    have hlt := h.covered (hstale hfresh)
      (fun i call hi ho => hunposted i call ((hcalls i call ho).mpr hi) ho) n hn
    exact hlt.trans_le hlist

/-- A call of another conversation does not matter. -/
theorem calls_insert_other {call' : SendCall} (hother : call'.onion ≠ o)
    (hid : ∀ call, tab.calls.get? id = some call → call.onion ≠ o) (i : ℕ) (call : SendCall)
    (ho : call.onion = o) :
    (tab.calls.insert id call').get? i = some call ↔ tab.calls.get? i = some call := by
  rw [Dict.get?_insert]
  split_ifs with heq
  · subst heq
    constructor
    · intro hcall
      rw [Option.some.inj hcall] at hother
      exact absurd ho hother
    · intro hcall
      exact absurd ho (hid call hcall)
  · exact Iff.rfl

theorem Fits.begin (h : Fits tab o) (hkept : Kept B (.begin id onion plaintext) tab) :
    Fits (TabEvent.step B (.begin id onion plaintext) tab) o := by
  obtain ⟨hfresh, hnone⟩ := hkept
  unfold TabEvent.step
  dsimp only
  rcases hid : tab.calls.get? id with _ | call
  · dsimp only
    by_cases ho : onion = o
    · subst ho
      -- the call is the only one of the conversation
      have hcalls : ∀ i call, (tab.calls.insert id ⟨onion, plaintext, tab.list onion, false⟩).get? i =
          some call → call.onion = onion →
            i = id ∧ call = ⟨onion, plaintext, tab.list onion, false⟩ := by
        intro i call hi ho
        rw [Dict.get?_insert] at hi
        split_ifs at hi with heq
        · exact ⟨heq, (Option.some.inj hi).symm⟩
        · exact absurd ho (hnone i call hi)
      have hcovered : ∀ n ∈ tab.numbers onion, n < (tab.list onion).length :=
        h.covered hfresh fun i call hi ho => absurd ho (hnone i call hi)
      refine ⟨h.increasing, ?_, ?_, ?_, fun _ _ => hcovered⟩
      · intro i j call call' hi hj ho ho'
        rw [(hcalls i call hi ho).1, (hcalls j call' hj ho').1]
      · intro i call hi ho _
        rw [(hcalls i call hi ho).2]
        exact hcovered
      · intro i call hi ho hposted
        rw [(hcalls i call hi ho).2] at hposted
        cases hposted
    · refine h.mono rfl (calls_insert_other ho ?_) le_rfl fun hstale => hstale
      intro call hcall
      rw [hid] at hcall
      cases hcall
  · exact h

theorem numbers_post (calls : Dict ℕ SendCall) (n : ℕ) :
    ({ tab with calls := calls, attached := tab.attached ++ [(onion, n)] } : Tab).numbers o =
      if onion = o then tab.numbers o ++ [n] else tab.numbers o := by
  unfold Tab.numbers
  dsimp only
  rw [List.filter_append, List.map_append]
  split_ifs with heq
  · simp [heq]
  · simp [heq]

theorem Fits.post (h : Fits tab o) : Fits (TabEvent.step B (.post id) tab) o := by
  unfold TabEvent.step
  dsimp only
  rcases hid : tab.calls.get? id with _ | call
  · exact h
  dsimp only
  by_cases hposted : call.posted = true
  · rw [if_pos hposted]
    exact h
  rw [if_neg hposted]
  by_cases ho : call.onion = o
  · subst ho
    have hwaiting := h.waiting id call hid rfl (Bool.eq_false_of_not_eq_true hposted)
    -- the call is still the only one of the conversation
    have hcalls : ∀ i call', (tab.calls.insert id { call with posted := true }).get? i = some call' →
        call'.onion = call.onion → i = id ∧ call' = { call with posted := true } := by
      intro i call' hi ho
      rw [Dict.get?_insert] at hi
      split_ifs at hi with heq
      · exact ⟨heq, (Option.some.inj hi).symm⟩
      · exact absurd (h.single i id call' call hi hid ho rfl) heq
    have hnumbers := @numbers_post tab call.onion call.onion
      (tab.calls.insert id { call with posted := true }) call.existing.length
    rw [if_pos rfl] at hnumbers
    refine ⟨?_, ?_, ?_, ?_, ?_⟩
    · rw [hnumbers, List.pairwise_append]
      refine ⟨h.increasing, List.pairwise_singleton _ _, ?_⟩
      intro n hn m hm
      rw [List.mem_singleton.mp hm]
      exact hwaiting n hn
    · intro i j call' call'' hi hj ho ho'
      rw [(hcalls i call' hi ho).1, (hcalls j call'' hj ho').1]
    · intro i call' hi ho hunposted
      rw [(hcalls i call' hi ho).2] at hunposted
      cases hunposted
    · intro i call' hi ho _ n hn
      rw [(hcalls i call' hi ho).2]
      rw [hnumbers] at hn
      rcases List.mem_append.mp hn with hn | hn
      · exact (hwaiting n hn).le
      · rw [List.mem_singleton.mp hn]
    · -- the list is not ahead of the number until the call returns
      intro _ hunposted
      have hfalse := hunposted id { call with posted := true } (by rw [Dict.get?_insert, if_pos rfl]) rfl
      cases hfalse
  · refine h.mono ?_ (calls_insert_other ho ?_) le_rfl fun hstale => hstale
    · exact (numbers_post _ _).trans (if_neg ho)
    · intro call' hcall
      rw [hid] at hcall
      rw [← Option.some.inj hcall]
      exact ho

/-- The end of a call after which the list is ahead. -/
theorem Fits.finish (h : Fits tab o) (hid : tab.calls.get? id = some call)
    (hcalls : tab'.calls = tab.calls.erase id) (hattached : tab'.attached = tab.attached)
    (hstale : tab'.stale = tab.stale)
    (hother : call.onion ≠ o → (tab.list o).length ≤ (tab'.list o).length)
    (hahead : call.onion = o → o ∉ tab.stale → ∀ n ∈ tab.numbers o, n < (tab'.list o).length) :
    Fits tab' o := by
  have hnumbers : tab'.numbers o = tab.numbers o := by
    unfold Tab.numbers
    rw [hattached]
  have hgone : ∀ i call', tab'.calls.get? i = some call' → i ≠ id ∧ tab.calls.get? i = some call' := by
    intro i call' hi
    rw [hcalls, Dict.get?_erase] at hi
    split_ifs at hi with heq
    exact ⟨heq, hi⟩
  by_cases ho : call.onion = o
  · -- no call of the conversation is left
    have hnone : ∀ i call', tab'.calls.get? i = some call' → call'.onion ≠ o := by
      intro i call' hi ho'
      exact (hgone i call' hi).1 (h.single i id call' call (hgone i call' hi).2 hid ho' ho)
    refine ⟨?_, ?_, ?_, ?_, ?_⟩
    · rw [hnumbers]
      exact h.increasing
    · intro i j call' call'' hi hj ho'
      exact absurd ho' (hnone i call' hi)
    · intro i call' hi ho'
      exact absurd ho' (hnone i call' hi)
    · intro i call' hi ho'
      exact absurd ho' (hnone i call' hi)
    · intro hfresh _ n hn
      rw [hnumbers] at hn
      rw [hstale] at hfresh
      exact hahead ho hfresh n hn
  · refine h.mono hnumbers ?_ (hother ho) ?_
    swap
    · rw [hstale]
      exact fun hfresh => hfresh
    intro i call' ho'
    refine ⟨fun hi => (hgone i call' hi).2, ?_⟩
    intro hi
    rw [hcalls, Dict.get?_erase, if_neg]
    · exact hi
    · rintro rfl
      rw [hid] at hi
      rw [Option.some.inj hi] at ho
      exact ho ho'

theorem Fits.answer (h : Fits tab o) (hkept : Kept B (.answer id msg) tab) :
    Fits (TabEvent.step B (.answer id msg) tab) o := by
  unfold TabEvent.step
  dsimp only
  rcases hid : tab.calls.get? id with _ | call
  · exact h
  dsimp only
  by_cases hposted : call.posted = true
  swap
  · rw [if_neg hposted]
    exact h
  rw [if_pos hposted]
  -- text that cannot be encoded is posted but not listed
  rcases hbtoa : B.btoa call.plaintext with _ | text
  · have hnothing : withSent B call.existing msg call.plaintext = none := by
      unfold withSent
      rw [hbtoa]
      rfl
    rw [hnothing]
    refine h.finish hid rfl rfl rfl (fun _ => le_rfl) ?_
    rintro rfl - n hn
    exact (h.taken id call hid rfl hposted n hn).trans_lt (hkept call hid hposted hbtoa)
  · have hwritten : withSent B call.existing msg call.plaintext =
        some (call.existing ++ [{ msg with ciphertextB64 := text }]) := by
      unfold withSent
      rw [hbtoa]
      rfl
    rw [hwritten]
    -- the list grows by the message, and so does the bound
    have hlist : ∀ o, ((tab.setList call.onion (call.existing ++ [{ msg with ciphertextB64 := text }])
        |>.finish id).list o) = if o = call.onion then
          call.existing ++ [{ msg with ciphertextB64 := text }] else tab.list o :=
      fun o => list_setList _
    refine h.finish hid rfl rfl rfl ?_ ?_
    · intro ho
      dsimp only
      rw [hlist, if_neg (Ne.symm ho)]
    · rintro rfl - n hn
      dsimp only
      rw [hlist, if_pos rfl, List.length_append, List.length_singleton]
      have hle := h.taken id call hid rfl hposted n hn
      omega

theorem Fits.fail (h : Fits tab o) (hkept : Kept B (.fail id) tab) :
    Fits (TabEvent.step B (.fail id) tab) o := by
  rcases hid : tab.calls.get? id with _ | call
  · -- there is no such call
    refine h.mono rfl ?_ le_rfl fun hstale => hstale
    intro i call _
    show (tab.calls.erase id).get? i = some call ↔ tab.calls.get? i = some call
    rw [Dict.get?_erase]
    split_ifs with heq
    · rw [heq, hid]
      simp
    · exact Iff.rfl
  · refine h.finish hid rfl rfl rfl (fun _ => le_rfl) ?_
    rintro rfl hfresh n hn
    rcases hposted : call.posted with _ | _
    · refine h.covered hfresh ?_ n hn
      intro i call' hi ho
      have heq := h.single i id call' call hi hid ho rfl
      rw [heq, hid] at hi
      rw [← Option.some.inj hi]
      exact hposted
    · exact (h.taken id call hid rfl hposted n hn).trans_lt (hkept call hid hposted)

theorem Fits.add (h : Fits tab o) : Fits (TabEvent.step B (.add onion msg) tab) o := by
  refine h.mono rfl (fun _ _ _ => Iff.rfl) ?_ fun hstale => hstale
  show (tab.list o).length ≤ ((tab.setList onion (tab.list onion ++ [msg])).list o).length
  rw [list_setList]
  split_ifs with ho
  · rw [ho, List.length_append]
    omega
  · exact le_rfl

theorem Fits.load (h : Fits tab o) (hkept : Kept B (.load onion shown) tab) :
    Fits (TabEvent.step B (.load onion shown) tab) o := by
  have hlist : (TabEvent.step B (.load onion shown) tab).list o =
      if o = onion then shown.getD [] else tab.list o := list_setList _
  by_cases ho : o = onion
  · subst ho
    refine ⟨h.increasing, h.single, h.waiting, h.taken, ?_⟩
    intro _ _ n hn
    rw [hlist, if_pos rfl]
    exact hkept n hn
  · refine h.mono rfl (fun _ _ _ => Iff.rfl) ?_ ?_
    · rw [hlist, if_neg ho]
    · intro hstale hmem
      refine hstale (List.mem_filter.mpr ⟨hmem, ?_⟩)
      exact decide_eq_true ho

/-- After a reload only a conversation without numbers is up to date. -/
theorem Fits.reload (h : Fits tab o) : Fits (TabEvent.step B .reload tab) o := by
  have hnone : ∀ i call, ¬ (Dict.empty : Dict ℕ SendCall).get? i = some call := by
    intro i call hi
    cases hi
  refine ⟨h.increasing, fun i _ call _ hi => absurd hi (hnone i call),
    fun i call hi => absurd hi (hnone i call), fun i call hi => absurd hi (hnone i call), ?_⟩
  intro hfresh _ n hn
  obtain ⟨entry, hentry, -⟩ := List.mem_map.mp hn
  obtain ⟨hmem, ho⟩ := List.mem_filter.mp hentry
  have ho := of_decide_eq_true ho
  exact absurd (List.mem_map.mpr ⟨entry, hmem, ho⟩) hfresh

/-- Every step that keeps the lists ahead of the numbers leads to such a state. -/
theorem fits_step (e : TabEvent) (h : ∀ o, Fits tab o) (hkept : Kept B e tab) :
    ∀ o, Fits (e.step B tab) o := by
  intro o
  rcases e with ⟨id, onion, plaintext⟩ | id | ⟨id, msg⟩ | id | ⟨onion, msg⟩ | ⟨onion, shown⟩ | _
  · exact (h o).begin hkept
  · exact (h o).post
  · exact (h o).answer hkept
  · exact (h o).fail hkept
  · exact (h o).add
  · exact (h o).load hkept
  · exact (h o).reload

end

/-! ## Runs -/

/-- The check passes exactly the numbers above all that are stored. -/
theorem refuses_eq_false {stored : List ℕ} {seq : ℕ} (h : ∀ n ∈ stored, n < seq) :
    refuses stored seq = false := by
  unfold refuses
  rcases hmax : stored.max? with _ | last
  · rfl
  · have hlast := h last (List.max?_mem hmax)
    simpa using hlast

/-- A node refuses nothing of what grows. -/
theorem refused_eq_nil {stored reaching : List ℕ} (h : (stored ++ reaching).Pairwise (· < ·)) :
    refused stored reaching = [] := by
  induction reaching generalizing stored with
  | nil => rfl
  | cons seq rest ih =>
    have hpasses : refuses stored seq = false := by
      refine refuses_eq_false fun n hn => ?_
      exact (List.pairwise_append.mp h).2.2 n hn seq List.mem_cons_self
    unfold refused
    rw [hpasses]
    refine ih ?_
    rw [List.append_assoc]
    exact h

theorem acceptable_of_fits {tab : Tab} (h : ∀ o, Fits tab o) : Acceptable tab where
  increasing o := (h o).increasing
  accepted o _ hreaching := refused_eq_nil ((h o).increasing.sublist hreaching)

/-- The page when it is opened for the first time. -/
def Tab.opened : Tab := ⟨Dict.empty, Dict.empty, [], []⟩

theorem fits_opened (o : String) : Fits Tab.opened o := by
  have hnone : ∀ i call, ¬ Tab.opened.calls.get? i = some call := by
    intro i call hi
    cases hi
  refine ⟨List.Pairwise.nil, fun i _ call _ hi => absurd hi (hnone i call),
    fun i call hi => absurd hi (hnone i call), fun i call hi => absurd hi (hnone i call), ?_⟩
  intro _ _ n hn
  cases hn

/-- In every run whose steps let no list fall behind the numbers of its conversation, the numbers of
every conversation grow, and no node refuses a message. -/
theorem acceptable_of_kept (B : Browser) (events : List TabEvent)
    (hkept : AllMeet (TabEvent.run B) (Kept B) events Tab.opened) :
    Acceptable (after (TabEvent.run B) events Tab.opened) := by
  have hstep : ∀ e tab, (∀ o, Fits tab o) → Kept B e tab →
      ∀ o, Fits ((TabEvent.run B e) tab).state o := fun e tab h hkept => fits_step e h hkept
  exact acceptable_of_fits (AllMeet.invariant hstep hkept fits_opened)

/-- A message as the node returns it. -/
def answered : UiMessage := ⟨"m", "me.onion", "peer.onion", "", "", 0, none⟩

/-- One message before the page is loaded anew, and one after the history has come. -/
def rememberedRun : List TabEvent :=
  [.begin 0 "peer.onion" "one", .post 0, .answer 0 answered, .reload,
    .load "peer.onion" (some [answered]), .begin 1 "peer.onion" "two", .post 1]

theorem acceptable_rememberedRun :
    Acceptable (after (TabEvent.run sampleBrowser) rememberedRun Tab.opened) := by
  refine acceptable_of_kept sampleBrowser rememberedRun
    ⟨⟨List.not_mem_nil, ?_⟩, trivial, ?_, trivial, ?_, ⟨List.not_mem_nil, ?_⟩, trivial, trivial⟩
  · intro id call hcall
    cases hcall
  · intro call hcall _ hbtoa
    rw [← Option.some.inj hcall] at hbtoa
    have hone : sampleBrowser.btoa "one" ≠ none := by decide +kernel
    exact absurd hbtoa hone
  · intro n hn
    rw [List.mem_singleton.mp hn]
    decide
  · intro id call hcall
    cases hcall

/-- The same where the history does not come. -/
def forgottenRun : List TabEvent :=
  [.begin 0 "peer.onion" "one", .post 0, .answer 0 answered, .reload,
    .load "peer.onion" none, .begin 1 "peer.onion" "two", .post 1]

/-- Both messages have the number 0, and the node of the contact refuses the second. -/
theorem forgotten_numbers :
    ¬ Acceptable (after (TabEvent.run sampleBrowser) forgottenRun Tab.opened) := by
  have hnumbers : (after (TabEvent.run sampleBrowser) forgottenRun Tab.opened).numbers "peer.onion" =
      [0, 0] := by decide +kernel
  intro hacceptable
  have hrefused := hacceptable.accepted "peer.onion" _ (List.Sublist.refl _)
  rw [hnumbers] at hrefused
  revert hrefused
  decide

/-! ## Whole calls -/

section

variable (W : Platform) (B : Browser)

/-- What `receiveMessage` adds to a list. -/
def addedLive (onion : String) (resolves : Bool) (supply : Supply) (msg : UiMessage) (c : Client) :
    Option (String × UiMessage) :=
  match targetOf W B onion c.identity resolves msg with
  | none => some (onion, msg)
  | some (targetOnion, msg) =>
    ((decryptMessage W B targetOnion resolves supply msg c).value?).bind fun d =>
      shownLive B onion targetOnion d.1 d.2

/-- An event of the store in its parts. `taken` tells whether the node has taken a message when its
answer does not come. -/
def MessagesEvent.parts : MessagesEvent → Bool → Client → List TabEvent
  | .load onion history, _, c =>
    [.load onion (history.map fun page =>
      (((loadMessages W B onion (some page) c).value?.getD []).filterMap fun d =>
        shownInHistory B d.1 d.2).reverse)]
  | .send onion plaintext myOnion supply response, taken, c =>
    match (prepareSend W B onion plaintext myOnion supply c).value?, response with
    | none, _ => [.begin 0 onion plaintext, .fail 0]
    | some _, some msg => [.begin 0 onion plaintext, .post 0, .answer 0 msg]
    | some _, none =>
      if taken then [.begin 0 onion plaintext, .post 0, .fail 0]
      else [.begin 0 onion plaintext, .fail 0]
  | .receive onion resolves supply msg, _, c =>
    ((addedLive W B onion resolves supply msg c).map fun added => .add added.1 added.2).toList
  | .contacts _, _, _ => []
  | .reload, _, _ => [.reload]

/-- The request of an event that a node takes. -/
def MessagesEvent.request : MessagesEvent → Bool → Client → Option SendRequest
  | .send onion plaintext myOnion supply response, taken, c =>
    if response.isSome || taken then (prepareSend W B onion plaintext myOnion supply c).value?
    else none
  | _, _, _ => none

/-- The lists of the client, between calls. -/
structure SameLists (c : Client) (tab : Tab) : Prop where
  messageMap : tab.messageMap = c.messageMap
  calls      : tab.calls = Dict.empty

variable {W B} {c : Client} {tab : Tab}

theorem SameLists.list (h : SameLists c tab) (onion : String) :
    tab.list onion = getMessages onion c := by
  unfold Tab.list getMessages
  rw [h.messageMap]

/-- A request has the length of the list for its number. -/
theorem prepareSend_number {onion plaintext myOnion : String} {supply : Supply}
    {request : SendRequest} {c' : Client}
    (hrun : prepareSend W B onion plaintext myOnion supply c = .ok request c') :
    (request.recipientOnion, request.sequenceNumber) = (onion, (getMessages onion c).length) := by
  unfold prepareSend at hrun
  rw [apply_bind, apply_get] at hrun
  dsimp only at hrun
  rcases hidentity : c.identity with _ | identity
  · rw [hidentity] at hrun
    cases hrun
  rw [hidentity] at hrun
  dsimp only at hrun
  obtain ⟨session, c₁, -, hrun⟩ := ok_of_bind hrun
  obtain ⟨_, c₂, -, hrun⟩ := ok_of_bind hrun
  rcases hencrypt : encrypt W plaintext supply.random supply.nonce session with
    ⟨enc, session'⟩ | ⟨e, session'⟩
  · rw [hencrypt] at hrun
    obtain ⟨_, c₃, -, hrun⟩ := ok_of_bind hrun
    obtain ⟨localKey, c₄, -, hrun⟩ := ok_of_bind hrun
    obtain ⟨selfEncBytes, c₅, -, hrun⟩ := ok_of_bind hrun
    obtain ⟨rfl, -⟩ := Result.ok.inj hrun
    rfl
  · rw [hencrypt] at hrun
    cases hrun

/-- The requests of an event with the numbers that are attached. -/
def MessagesEvent.attached (W : Platform) (B : Browser) (e : MessagesEvent) (taken : Bool)
    (c : Client) : Option (String × ℕ) :=
  (e.request W B taken c).map fun request => (request.recipientOnion, request.sequenceNumber)

theorem sendMessage_state (onion plaintext myOnion : String) (supply : Supply)
    (response : Option UiMessage) :
    (sendMessage W B onion plaintext myOnion supply response c).state.messageMap =
      (((prepareSend W B onion plaintext myOnion supply c).value?.bind fun _ =>
        response.bind fun msg => withSent B (getMessages onion c) msg plaintext).map fun msgs =>
          c.messageMap.insert onion msgs).getD c.messageMap := by
  have hkeeps := prepareSend_keeps (W := W) (B := B) (g := Client.messageMap)
    (fun _ _ => rfl : ∀ session c, (saveSession onion session c).messageMap = c.messageMap)
    plaintext myOnion supply c
  unfold sendMessage
  rw [apply_bind, apply_get]
  dsimp only
  rw [apply_bind, apply_get]
  dsimp only
  rcases hrun : prepareSend W B onion plaintext myOnion supply c with ⟨request, c'⟩ | ⟨e, c'⟩
  · rw [hrun, Result.state_ok] at hkeeps
    dsimp only
    rw [apply_bind, apply_set]
    dsimp only
    show _ = ((response.bind fun msg => withSent B (getMessages onion c) msg plaintext).map fun msgs =>
      c.messageMap.insert onion msgs).getD c.messageMap
    rw [← hkeeps]
    rcases response.bind fun msg => withSent B (getMessages onion c) msg plaintext with _ | msgs
    · rfl
    · rfl
  · rw [hrun, Result.state_error] at hkeeps
    exact hkeeps

/-- The parts of one call of `sendMessage`, with nothing between them. -/
theorem after_begin_fail (h : tab.calls = Dict.empty) (onion plaintext : String) :
    after (TabEvent.run B) [.begin 0 onion plaintext, .fail 0] tab = tab := by
  obtain ⟨messageMap, calls, attached, stale⟩ := tab
  subst h
  rfl

theorem after_begin_post_fail (h : tab.calls = Dict.empty) (onion plaintext : String) :
    after (TabEvent.run B) [.begin 0 onion plaintext, .post 0, .fail 0] tab =
      { tab with attached := tab.attached ++ [(onion, (tab.list onion).length)] } := by
  obtain ⟨messageMap, calls, attached, stale⟩ := tab
  subst h
  rfl

theorem after_begin_post_answer (h : tab.calls = Dict.empty) (onion plaintext : String)
    (msg : UiMessage) :
    after (TabEvent.run B) [.begin 0 onion plaintext, .post 0, .answer 0 msg] tab =
      { tab with
        messageMap := ((withSent B (tab.list onion) msg plaintext).map fun msgs =>
          tab.messageMap.insert onion msgs).getD tab.messageMap
        attached   := tab.attached ++ [(onion, (tab.list onion).length)] } := by
  obtain ⟨messageMap, calls, attached, stale⟩ := tab
  subst h
  have hposted : after (TabEvent.run B) [.begin 0 onion plaintext, .post 0]
      ⟨messageMap, Dict.empty, attached, stale⟩ =
      ⟨messageMap, ⟨[(0, ⟨onion, plaintext, (messageMap.get? onion).getD [], true⟩)],
        List.nodup_singleton 0⟩, attached ++ [(onion, ((messageMap.get? onion).getD []).length)],
        stale⟩ := rfl
  have hthree : [.begin 0 onion plaintext, .post 0, .answer 0 msg] =
      [.begin 0 onion plaintext, .post 0] ++ [TabEvent.answer 0 msg] := rfl
  have hget : (⟨[(0, ⟨onion, plaintext, (messageMap.get? onion).getD [], true⟩)],
      List.nodup_singleton 0⟩ : Dict ℕ SendCall).get? 0 =
      some ⟨onion, plaintext, (messageMap.get? onion).getD [], true⟩ := rfl
  rw [hthree, after_append, hposted, after_cons, after_nil, TabEvent.run_state]
  unfold TabEvent.step Tab.list
  dsimp only
  rw [hget]
  dsimp only
  rw [if_pos rfl]
  rcases withSent B ((messageMap.get? onion).getD []) msg plaintext with _ | msgs
  · rfl
  · rfl

theorem parts_send (h : SameLists c tab) (onion plaintext myOnion : String) (supply : Supply)
    (response : Option UiMessage) (taken : Bool) {e : MessagesEvent}
    (he : e = .send onion plaintext myOnion supply response) :
    SameLists (e.run W B c).state (after (TabEvent.run B) (e.parts W B taken c) tab) ∧
      (after (TabEvent.run B) (e.parts W B taken c) tab).attached =
        tab.attached ++ (e.attached W B taken c).toList := by
  subst he
  have hlist := h.list onion
  have hstate := sendMessage_state (W := W) (B := B) (c := c) onion plaintext myOnion supply response
  have hrun : ((MessagesEvent.send onion plaintext myOnion supply response).run W B c).state =
      (sendMessage W B onion plaintext myOnion supply response c).state := state_discard _ _ _
  unfold MessagesEvent.parts MessagesEvent.attached MessagesEvent.request
  dsimp only
  rcases hprepare : prepareSend W B onion plaintext myOnion supply c with ⟨request, c'⟩ | ⟨e, c'⟩
  · have hnumber := prepareSend_number hprepare
    rw [hprepare] at hstate
    rcases response with _ | msg
    · rcases taken with _ | _
      · -- no request is made
        have hafter := after_begin_fail (B := B) h.calls onion plaintext
        refine ⟨⟨?_, ?_⟩, ?_⟩
        · rw [hrun, hstate]
          exact (congrArg Tab.messageMap hafter).trans h.messageMap
        · exact (congrArg Tab.calls hafter).trans h.calls
        · exact (congrArg Tab.attached hafter).trans (List.append_nil _).symm
      · have hafter := after_begin_post_fail (B := B) h.calls onion plaintext
        refine ⟨⟨?_, ?_⟩, ?_⟩
        · rw [hrun, hstate]
          exact (congrArg Tab.messageMap hafter).trans h.messageMap
        · exact (congrArg Tab.calls hafter).trans h.calls
        · refine (congrArg Tab.attached hafter).trans ?_
          rw [hlist, ← hnumber]
          rfl
    · -- the answer is added to the list, under the number of the request
      have hafter := after_begin_post_answer (B := B) h.calls onion plaintext msg
      rw [hlist, h.messageMap] at hafter
      refine ⟨⟨?_, ?_⟩, ?_⟩
      · rw [hrun, hstate]
        exact congrArg Tab.messageMap hafter
      · exact (congrArg Tab.calls hafter).trans h.calls
      · refine (congrArg Tab.attached hafter).trans ?_
        rw [← hnumber]
        rfl
  · have hafter := after_begin_fail (B := B) h.calls onion plaintext
    rw [hprepare] at hstate
    refine ⟨⟨?_, ?_⟩, ?_⟩
    · rw [hrun, hstate]
      exact (congrArg Tab.messageMap hafter).trans h.messageMap
    · exact (congrArg Tab.calls hafter).trans h.calls
    · refine (congrArg Tab.attached hafter).trans ?_
      rcases response.isSome || taken with _ | _
      · exact (List.append_nil _).symm
      · exact (List.append_nil _).symm

theorem parts_load (h : SameLists c tab) (onion : String)
    (history : Option (List (UiMessage × Bool × Supply))) (taken : Bool) {e : MessagesEvent}
    (he : e = .load onion history) :
    SameLists (e.run W B c).state (after (TabEvent.run B) (e.parts W B taken c) tab) ∧
      (after (TabEvent.run B) (e.parts W B taken c) tab).attached = tab.attached := by
  subst he
  refine ⟨⟨?_, h.calls⟩, rfl⟩
  have hrun : ((MessagesEvent.load onion history).run W B c).state =
      (loadMessages W B onion history c).state := state_discard _ _ _
  rw [hrun]
  rcases history with _ | page
  · exact congrArg (Dict.insert · onion []) h.messageMap
  · obtain ⟨decrypted, c', hall, hwithin, -⟩ :=
      decryptAll_spec (W := W) (B := B) page (WithinLoad.refl : WithinLoad onion c c)
    have hload := loadMessages_eq page hall
    unfold MessagesEvent.parts
    dsimp only
    rw [Option.map_some, hload]
    show tab.messageMap.insert onion _ = c'.messageMap.insert onion _
    rw [hwithin.messageMap, h.messageMap]
    rfl

theorem parts_receive (h : SameLists c tab) (onion : String) (resolves : Bool) (supply : Supply)
    (msg : UiMessage) (taken : Bool) {e : MessagesEvent}
    (he : e = .receive onion resolves supply msg) :
    SameLists (e.run W B c).state (after (TabEvent.run B) (e.parts W B taken c) tab) ∧
      (after (TabEvent.run B) (e.parts W B taken c) tab).attached = tab.attached := by
  subst he
  -- what is shown is added to the list of its conversation
  have hadds : ∀ added : Option (String × UiMessage), ∀ c', c'.messageMap = c.messageMap →
      SameLists (appendMessage added c') (after (TabEvent.run B)
        ((added.map fun added => TabEvent.add added.1 added.2).toList) tab) ∧
      (after (TabEvent.run B) ((added.map fun added => TabEvent.add added.1 added.2).toList)
        tab).attached = tab.attached := by
    intro added c' hc'
    rcases added with _ | ⟨onion, msg⟩
    · exact ⟨⟨h.messageMap.trans hc'.symm, h.calls⟩, rfl⟩
    · refine ⟨⟨?_, h.calls⟩, rfl⟩
      show tab.messageMap.insert onion (tab.list onion ++ [msg]) =
        c'.messageMap.insert onion (getMessages onion c' ++ [msg])
      unfold Tab.list getMessages
      rw [h.messageMap, hc']
  have hrun : ((MessagesEvent.receive onion resolves supply msg).run W B c).state =
      (receiveMessage W B onion resolves supply msg c).state := rfl
  rw [hrun]
  unfold MessagesEvent.parts receiveMessage addedLive
  rw [apply_bind, apply_get]
  dsimp only
  rcases targetOf W B onion c.identity resolves msg with _ | ⟨targetOnion, msg⟩
  · exact hadds (some (onion, msg)) c rfl
  · obtain ⟨resolved, plaintext, c', hdecrypt, hwithin, -⟩ :=
      decryptMessage_spec (W := W) (B := B) resolves supply msg
        (WithinLoad.refl : WithinLoad targetOnion c c)
    dsimp only
    rw [apply_bind, hdecrypt]
    exact hadds _ c' hwithin.messageMap

/-- An event of the store does to the lists what its parts do, and attaches the numbers they
attach. -/
theorem parts_step (h : SameLists c tab) (e : MessagesEvent) (taken : Bool) :
    SameLists (e.run W B c).state (after (TabEvent.run B) (e.parts W B taken c) tab) ∧
      (after (TabEvent.run B) (e.parts W B taken c) tab).attached =
        tab.attached ++ (e.attached W B taken c).toList := by
  rcases he : e with ⟨onion, history⟩ | ⟨onion, plaintext, myOnion, supply, response⟩ |
    ⟨onion, resolves, supply, msg⟩ | list | _
  · obtain ⟨hsame, hattached⟩ := @parts_load W B c tab h onion history taken _ rfl
    exact ⟨hsame, hattached.trans (List.append_nil _).symm⟩
  · exact parts_send h onion plaintext myOnion supply response taken rfl
  · obtain ⟨hsame, hattached⟩ := @parts_receive W B c tab h onion resolves supply msg taken _ rfl
    exact ⟨hsame, hattached.trans (List.append_nil _).symm⟩
  · exact ⟨⟨h.messageMap, h.calls⟩, (List.append_nil _).symm⟩
  · exact ⟨⟨rfl, rfl⟩, (List.append_nil _).symm⟩

/-- The parts of a run of whole calls. -/
def partsOfRun (W : Platform) (B : Browser) :
    List (MessagesEvent × Bool) → Client → List TabEvent
  | [], _ => []
  | (e, taken) :: rest, c => e.parts W B taken c ++ partsOfRun W B rest (e.run W B c).state

/-- The numbers that a run of whole calls attaches. -/
def attachedLog (W : Platform) (B : Browser) :
    List (MessagesEvent × Bool) → Client → List (String × ℕ)
  | [], _ => []
  | (e, taken) :: rest, c =>
    (e.attached W B taken c).toList ++ attachedLog W B rest (e.run W B c).state

/-- A run of whole calls is the run of their parts. -/
theorem lists_of_run (run : List (MessagesEvent × Bool)) (h : SameLists c tab) :
    SameLists (after (fun e => MessagesEvent.run W B e.1) run c)
        (after (TabEvent.run B) (partsOfRun W B run c) tab) ∧
      (after (TabEvent.run B) (partsOfRun W B run c) tab).attached =
        tab.attached ++ attachedLog W B run c := by
  induction run generalizing c tab with
  | nil => exact ⟨h, (List.append_nil _).symm⟩
  | cons step run ih =>
    obtain ⟨e, taken⟩ := step
    obtain ⟨hsame, hattached⟩ := parts_step h e taken
    obtain ⟨hlists, hlog⟩ := ih hsame
    rw [after_cons, partsOfRun, attachedLog, after_append]
    refine ⟨hlists, ?_⟩
    rw [hlog, hattached, List.append_assoc]

end

/-- A browser that reads no envelope, and whose `atob` is always of as many bytes as a key has. -/
def plainBrowser : Browser where
  parseEnvelope _ := none
  envelopeText _  := "envelope"
  atob _          := some (List.replicate 32 9)
  btoa            := some

/-- A client with one contact, whose key comes second. -/
def firstClient : Client where
  identity   := some (sampleKeys 0)
  sessions   := Dict.empty
  contacts   := some [⟨"peer.onion", some "z", some "s"⟩]
  messageMap := Dict.empty

def plainNote : UiMessage := ⟨"m1", "peer.onion", "me.onion", "text", "iv", 0, none⟩

/-- The history is loaded, a message comes, one is sent and answered, and one whose answer is lost
on the way. -/
def fourNotes : List (MessagesEvent × Bool) :=
  [(.load "peer.onion" (some [(plainNote, true, sampleSupply)]), true),
    (.receive "peer.onion" true sampleSupply plainNote, true),
    (.send "peer.onion" "hi" "me.onion" sampleSupply (some plainNote), true),
    (.send "peer.onion" "ho" "me.onion" sampleSupply none, true)]

theorem lists_of_run_fourNotes :
    SameLists (after (fun e => MessagesEvent.run taggedPlatform plainBrowser e.1) fourNotes
          firstClient)
        (after (TabEvent.run plainBrowser)
          (partsOfRun taggedPlatform plainBrowser fourNotes firstClient) Tab.opened) ∧
      (after (TabEvent.run plainBrowser)
          (partsOfRun taggedPlatform plainBrowser fourNotes firstClient) Tab.opened).attached =
        [("peer.onion", 2), ("peer.onion", 3)] := by
  have hopened : SameLists firstClient Tab.opened := ⟨rfl, rfl⟩
  obtain ⟨hsame, hattached⟩ :=
    lists_of_run (W := taggedPlatform) (B := plainBrowser) fourNotes hopened
  refine ⟨hsame, hattached.trans ?_⟩
  decide +kernel

end AnonyMus.Web
