import Cogterm.Host.InputBuffer

namespace Cogterm.Host

open Input List Nat

variable {groups : List (List InputRecord)} {rest : List (List InputRecord)}

section

variable (cp : CodePage)

def rounds (unicode stream : Bool) : InputRecord → List (List InputRecord)
  | .key stored =>
    if stream then replicate (max 1 stored.wRepeatCount.toNat) (keyEvents cp unicode { stored with wRepeatCount := 1 })
    else [keyEvents cp unicode stored]
  | .other data => [[.other data]]

def pour (amountToRead : Nat) : List (List InputRecord) → List InputRecord → Except (List InputRecord) (List InputRecord)
  | [], outEvents => .ok outEvents
  | round :: rest, outEvents =>
    if outEvents.length < amountToRead then
      if round = [] then .error outEvents else pour amountToRead rest (outEvents ++ round)
    else .ok outEvents

theorem pour_full (full : amountToRead ≤ outEvents.length) : pour amountToRead groups outEvents = .ok outEvents := by
  cases groups with
  | nil => rfl
  | cons round rest => rw [pour, if_neg (by omega)]

theorem repeat_pours {count : Nat}
    (outEvents : List InputRecord) (nonempty : pressed ≠ []) (room : outEvents.length < amountToRead) :
    pour amountToRead (replicate (count + 1) pressed ++ rest) outEvents =
      pour amountToRead rest (repeatEvents amountToRead pressed (count + 1) outEvents).1 := by
  induction count generalizing outEvents with
  | zero => simp [pour, repeatEvents, room, nonempty]
  | succ count ih =>
    rw [replicate_succ, cons_append, pour, if_pos room, if_neg nonempty, repeatEvents]
    by_cases more : (outEvents ++ pressed).length < amountToRead
    · rw [ih (outEvents ++ pressed) more, if_pos ⟨succ_pos count, more⟩]
    · rw [if_neg (fun both => more both.2), pour_full (Nat.le_of_not_lt more), pour_full (Nat.le_of_not_lt more)]

theorem peek_loop_pours (request : ReadRequest) (peeking : request.peek = true) (storage outEvents : List InputRecord) :
    (readLoop cp request storage outEvents).map Prod.fst =
      pour request.amountToRead (storage.flatMap (rounds cp request.unicode request.stream)) outEvents := by
  induction storage generalizing outEvents with
  | nil => rfl
  | cons record rest ih =>
    by_cases room : outEvents.length < request.amountToRead
    · cases record with
      | other data =>
        rw [readLoop, flatMap_cons]
        simp only [rounds, singleton_append]
        simpa [pour, if_pos room] using ih _
      | key stored =>
        rw [readLoop, if_pos room, flatMap_cons]
        obtain ⟨count, event, isCount, isRounds⟩ : ∃ count event,
            (if request.stream then max 1 stored.wRepeatCount.toNat else 1) = count + 1 ∧
            rounds cp request.unicode request.stream (.key stored) =
              replicate (count + 1) (keyEvents cp request.unicode event) ∧
            event = if request.stream then { stored with wRepeatCount := 1 } else stored := by
          cases request.stream with
          | true =>
            have positive : max 1 stored.wRepeatCount.toNat = max 1 stored.wRepeatCount.toNat - 1 + 1 := by omega
            exact ⟨max 1 stored.wRepeatCount.toNat - 1, { stored with wRepeatCount := 1 }, positive,
              by rw [← positive]; rfl, rfl⟩
          | false => exact ⟨0, stored, rfl, rfl, rfl⟩
        rw [isRounds.1]
        rw [isCount, ← isRounds.2]
        by_cases failed : keyEvents cp request.unicode event = []
        · rw [if_pos failed, failed, replicate_succ, cons_append, pour, if_pos room]
          rfl
        rw [if_neg failed, repeat_pours _ failed room]
        generalize repeatEvents request.amountToRead (keyEvents cp request.unicode event) (count + 1) outEvents = repeated
        obtain ⟨pushed, left⟩ := repeated
        simp only [peeking, Bool.true_eq_false, and_false]
        exact ih pushed
    · rw [readLoop.eq_def, pour_full (Nat.le_of_not_lt room)]
      simp only [room]
      rfl

end

variable {amount : Nat}

-- Some group of events begins before the amount is reached and ends behind it,
-- and nothing before it fails to be converted.
def StraddlesFrom (amount start : Nat) (groups : List (List InputRecord)) : Prop :=
  ∃ front round back, groups = front ++ round :: back ∧ (∀ pressed ∈ front, pressed ≠ []) ∧
    start + front.flatten.length < amount ∧ amount < start + front.flatten.length + round.length

theorem straddles_nil : ¬ StraddlesFrom amount start [] := by
  rintro ⟨front, round, back, isGroups, -⟩
  cases front <;> cases isGroups

theorem straddles_past (past : amount ≤ start) : ¬ StraddlesFrom amount start groups := by
  rintro ⟨front, round, back, -, -, before, -⟩
  omega

theorem straddles_cons {round : List InputRecord} (nonempty : round ≠ []) (room : start < amount) :
    StraddlesFrom amount start (round :: rest) ↔ amount < start + round.length ∨
    StraddlesFrom amount (start + round.length) rest := by
  constructor
  · rintro ⟨front, other, back, isGroups, pressed, before, behind⟩
    cases front with
    | nil =>
      obtain ⟨rfl, -⟩ := isGroups
      rw [flatten_nil] at behind
      exact Or.inl (by omega)
    | cons first front =>
      rw [cons_append, cons.injEq] at isGroups
      obtain ⟨rfl, isRest⟩ := isGroups
      rw [flatten_cons, length_append] at before behind
      exact Or.inr ⟨front, other, back, isRest,
        fun group member => pressed group (mem_cons_of_mem _ member), by omega, by omega⟩
  · rintro (behind | ⟨front, other, back, isRest, pressed, before, behind⟩)
    · exact ⟨[], round, rest, rfl, fun group member => absurd member not_mem_nil, by simpa using room, by simpa using behind⟩
    · refine ⟨round :: front, other, back, by simp [isRest], ?_, ?_, ?_⟩
      · exact forall_mem_cons.mpr ⟨nonempty, pressed⟩
      · rw [flatten_cons, length_append]
        omega
      · rw [flatten_cons, length_append]
        omega

theorem pour_surplus_iff (groups : List (List InputRecord)) (outEvents : List InputRecord)
    (within : outEvents.length ≤ amount) :
    (∃ poured, pour amount groups outEvents = .ok poured ∧ amount < poured.length) ↔
      StraddlesFrom amount outEvents.length groups := by
  induction groups generalizing outEvents with
  | nil =>
    refine iff_of_false ?_ straddles_nil
    rintro ⟨poured, isPoured, surplus⟩
    cases isPoured
    omega
  | cons round rest ih =>
    by_cases room : outEvents.length < amount
    · rw [pour, if_pos room]
      by_cases failed : round = []
      · rw [if_pos failed]
        refine iff_of_false ?_ ?_
        · rintro ⟨poured, isPoured, -⟩
          cases isPoured
        · rintro ⟨front, other, back, isGroups, pressed, before, behind⟩
          cases front with
          | nil =>
            rw [nil_append, cons.injEq] at isGroups
            rw [← isGroups.1, failed, length_nil] at behind
            omega
          | cons first front =>
            rw [cons_append, cons.injEq] at isGroups
            exact pressed first mem_cons_self (isGroups.1 ▸ failed)
      · rw [if_neg failed, straddles_cons failed room]
        by_cases more : (outEvents ++ round).length ≤ amount
        · rw [ih (outEvents ++ round) more, length_append]
          rw [length_append] at more
          exact ⟨Or.inr, fun either => either.resolve_left (by omega)⟩
        · rw [pour_full (by omega)]
          rw [length_append] at more
          exact iff_of_true ⟨_, rfl, by rw [length_append]; omega⟩ (Or.inl (by omega))
    · rw [pour_full (Nat.le_of_not_lt room)]
      refine iff_of_false ?_ (straddles_past (Nat.le_of_not_lt room))
      rintro ⟨poured, isPoured, surplus⟩
      cases isPoured
      omega

namespace InputBuffer

variable (cp : CodePage)

-- The events that are there for a mode: those cached in it and, behind them,
-- the stored ones.
def Straddles (buffer : InputBuffer) (amount : Nat) (unicode stream : Bool) : Prop :=
  StraddlesFrom amount (buffer.switchReadingMode (eventsMode unicode)).cachedInputEvents.length
    (buffer.storage.flatMap (rounds cp unicode stream))

def peekRequest (amount : Nat) (waitForData unicode stream : Bool) : ReadRequest :=
  ⟨amount, true, waitForData, unicode, stream⟩

-- A peek without a surplus only switches the mode. With one, the surplus stays
-- in the cache although its events stay stored.
theorem peek_result (buffer : InputBuffer) (amount : Nat) (waitForData unicode stream : Bool) :
    let switched := buffer.switchReadingMode (eventsMode unicode)
    let after := (buffer.read cp (peekRequest amount waitForData unicode stream)).1
    (¬ buffer.Straddles cp amount unicode stream → after = switched) ∧
      (buffer.Straddles cp amount unicode stream → ∃ surplus, surplus ≠ [] ∧
        after = { switched with cachedInputEvents := switched.cachedInputEvents ++ surplus }) := by
  intro switched after
  have pours := peek_loop_pours cp (peekRequest amount waitForData unicode stream) rfl switched.storage
    (switched.peekCached amount)
  have within : (switched.peekCached amount).length ≤ amount := by simp [peekCached]
  have surplus := pour_surplus_iff (buffer.storage.flatMap (rounds cp unicode stream)) (switched.peekCached amount) within
  have same : StraddlesFrom amount (switched.peekCached amount).length (buffer.storage.flatMap (rounds cp unicode stream)) ↔
      buffer.Straddles cp amount unicode stream := by
    rw [Straddles, peekCached, length_take]
    by_cases few : switched.cachedInputEvents.length ≤ amount
    · rw [min_eq_right few]
    · rw [min_eq_left (by omega)]
      exact iff_of_false (straddles_past (Nat.le_refl _)) (straddles_past (Nat.le_of_not_le few))
  rw [same] at surplus
  have isAfter : after = ((readLoop cp (peekRequest amount waitForData unicode stream) switched.storage
      (switched.peekCached amount)).toOption.map (fun result => (switched.cache result.1 amount).1)).getD switched := by
    show (buffer.read cp (peekRequest amount waitForData unicode stream)).1 = _
    rw [read]
    simp only [peekRequest, if_true]
    cases readLoop cp ⟨amount, true, waitForData, unicode, stream⟩ switched.storage (switched.peekCached amount) <;> rfl
  have stored : switched.storage = buffer.storage := switch_storage
  cases looped : readLoop cp (peekRequest amount waitForData unicode stream) switched.storage (switched.peekCached amount) with
  | error outEvents =>
    rw [looped] at isAfter pours
    refine ⟨fun _ => isAfter, fun straddles => ?_⟩
    obtain ⟨poured, isPoured, -⟩ := surplus.mpr straddles
    rw [stored] at pours
    have both := pours.trans isPoured
    cases both
  | ok result =>
    obtain ⟨outEvents, remaining⟩ := result
    rw [looped] at isAfter pours
    rw [stored] at pours
    have isPoured : pour amount (buffer.storage.flatMap (rounds cp unicode stream)) (switched.peekCached amount) =
      .ok outEvents :=
      pours.symm
    refine ⟨fun aligned => ?_, fun straddles => ⟨outEvents.drop amount, ?_, isAfter⟩⟩
    · have fits : outEvents.length ≤ amount :=
        Nat.le_of_not_lt fun more => aligned (surplus.mp ⟨outEvents, isPoured, more⟩)
      rw [isAfter]
      simp [cache, Except.toOption, drop_of_length_le fits]
    · obtain ⟨poured, alsoPoured, more⟩ := surplus.mpr straddles
      have equal := isPoured.symm.trans alsoPoured
      cases equal
      intro nothing
      have short := drop_eq_nil_iff.mp nothing
      omega

theorem read_switched (buffer : InputBuffer) (request : ReadRequest) :
    (buffer.switchReadingMode (eventsMode request.unicode)).read cp request = buffer.read cp request := by
  simp [read]

theorem reads_switched (buffer : InputBuffer) (sameMode : ∀ request ∈ requests, request.unicode = unicode) :
    (buffer.switchReadingMode (eventsMode unicode)).reads cp requests = buffer.reads cp requests := by
  cases requests with
  | nil => rfl
  | cons request rest =>
    have first := read_switched cp buffer request
    rw [sameMode request mem_cons_self] at first
    simp [reads, first]

end InputBuffer

section

variable (cp : CodePage) (unicode : Bool)

def availableEvents : List InputRecord → List InputRecord
  | [] => []
  | .other data :: rest => .other data :: availableEvents rest
  | .key stored :: rest =>
    if keyEvents cp unicode stored = [] then [] else keyEvents cp unicode stored ++ availableEvents rest

def plainRequest (amount : Nat) : ReadRequest := ⟨amount, false, false, unicode, false⟩

theorem plain_loop_available (amount : Nat) (storage outEvents : List InputRecord)
    (enough : amount ≤ outEvents.length + (availableEvents cp unicode storage).length) :
    ∃ final remaining, readLoop cp (plainRequest unicode amount) storage outEvents = .ok (final, remaining) ∧
      final ++ availableEvents cp unicode remaining = outEvents ++ availableEvents cp unicode storage ∧
      amount ≤ final.length ∧ (amount ≤ outEvents.length → final = outEvents ∧ remaining = storage) := by
  induction storage generalizing outEvents with
  | nil => exact ⟨outEvents, [], rfl, rfl, by simpa [availableEvents] using enough, fun _ => ⟨rfl, rfl⟩⟩
  | cons record rest ih =>
    by_cases room : outEvents.length < amount
    · have going : outEvents.length < (plainRequest unicode amount).amountToRead := room
      cases record with
      | other data =>
        rw [availableEvents, length_cons] at enough
        obtain ⟨final, remaining, looped, same, reached, -⟩ := ih (outEvents ++ [.other data])
          (by rw [length_append, length_singleton]; omega)
        refine ⟨final, remaining, ?_, ?_, reached, fun full => absurd room (by omega)⟩
        · rw [readLoop, if_pos going]
          exact looped
        · simp [same, availableEvents]
      | key stored =>
        rw [availableEvents] at enough
        by_cases failed : keyEvents cp unicode stored = []
        · rw [if_pos failed, length_nil] at enough
          omega
        rw [if_neg failed, length_append] at enough
        obtain ⟨final, remaining, looped, same, reached, -⟩ := ih (outEvents ++ keyEvents cp unicode stored)
          (by rw [length_append]; omega)
        refine ⟨final, remaining, ?_, ?_, reached, fun full => absurd room (by omega)⟩
        · rw [readLoop, if_pos going]
          simpa [plainRequest, failed, repeatEvents] using looped
        · simp [same, availableEvents, if_neg failed]
    · refine ⟨outEvents, record :: rest, ?_, rfl, Nat.le_of_not_lt room, fun _ => ⟨rfl, rfl⟩⟩
      exact if_neg room

namespace InputBuffer

def pendingEvents (buffer : InputBuffer) : List InputRecord :=
  buffer.cachedInputEvents ++ availableEvents cp unicode buffer.storage

variable {buffer : InputBuffer}

theorem plain_read_result (mode : buffer.readingMode = eventsMode unicode) :
    buffer.read cp (plainRequest unicode amount) =
      match readLoop cp (plainRequest unicode amount) buffer.storage (buffer.cachedInputEvents.take amount) with
      | .error outEvents =>
        ({ buffer with cachedInputEvents := buffer.cachedInputEvents.drop amount }, ⟨outEvents, .failed⟩)
      | .ok (outEvents, remaining) =>
        ({ buffer with
            storage := remaining
            cachedInputEvents := buffer.cachedInputEvents.drop amount ++ outEvents.drop amount },
          ⟨outEvents.take amount, readStatus (plainRequest unicode amount) (outEvents.take amount)⟩) := by
  have switched : buffer.switchReadingMode (eventsMode (plainRequest unicode amount).unicode) = buffer := switch_again mode
  rw [read, switched]
  cases readLoop cp ⟨amount, false, false, unicode, false⟩ buffer.storage (buffer.cachedInputEvents.take amount) <;> rfl

theorem plain_read_takes (amount : Nat) (mode : buffer.readingMode = eventsMode unicode)
    (enough : amount ≤ (buffer.pendingEvents cp unicode).length) : let after := buffer.read cp (plainRequest unicode amount)
    after.2.events = (buffer.pendingEvents cp unicode).take amount ∧ after.1.readingMode = eventsMode unicode ∧
      after.1.pendingEvents cp unicode = (buffer.pendingEvents cp unicode).drop amount := by
  obtain ⟨cached, isCached⟩ : ∃ cached, cached = buffer.cachedInputEvents := ⟨_, rfl⟩
  have total : buffer.pendingEvents cp unicode =
    cached ++ availableEvents cp unicode buffer.storage := by rw [pendingEvents, isCached]
  rw [total, length_append] at enough
  obtain ⟨final, remaining, looped, same, reached, unchanged⟩ := plain_loop_available cp unicode amount buffer.storage
    (cached.take amount) (by rw [length_take]; omega)
  have done : buffer.read cp (plainRequest unicode amount) =
      ({ buffer with storage := remaining, cachedInputEvents := cached.drop amount ++ final.drop amount },
        ⟨final.take amount, readStatus (plainRequest unicode amount) (final.take amount)⟩) := by
    rw [plain_read_result cp unicode mode, ← isCached, looped]
  have whole : cached.drop amount ++ final.drop amount ++ availableEvents cp unicode remaining =
      (cached ++ availableEvents cp unicode buffer.storage).drop amount ∧
      final.take amount = (cached ++ availableEvents cp unicode buffer.storage).take amount := by
    by_cases few : amount ≤ cached.length
    · obtain ⟨isFinal, isRemaining⟩ := unchanged (by rw [length_take]; omega)
      simp [isFinal, isRemaining, drop_append_of_le_length few, take_append_of_le_length few]
    · have all : cached.take amount = cached := take_of_length_le (by omega)
      rw [all] at same
      rw [← same, drop_of_length_le (by omega), drop_append_of_le_length reached, take_append_of_le_length reached]
      exact ⟨rfl, rfl⟩
  rw [done, total]
  exact ⟨whole.2, mode, whole.1⟩

theorem plain_read_nothing (mode : buffer.readingMode = eventsMode unicode) (nothing : buffer.pendingEvents cp unicode = []) :
    (buffer.read cp (plainRequest unicode 1)).2.events = [] := by
  obtain ⟨noCached, noAvailable⟩ := append_eq_nil_iff.mp nothing
  rw [plain_read_result cp unicode mode, noCached]
  cases stored : buffer.storage with
  | nil => rfl
  | cons record rest =>
    rw [stored] at noAvailable
    cases record with
    | other data => cases noAvailable
    | key event =>
      rw [availableEvents] at noAvailable
      by_cases failed : keyEvents cp unicode event = []
      · simp [readLoop, plainRequest, failed]
      · rw [if_neg failed] at noAvailable
        exact absurd (append_eq_nil_iff.mp noAvailable).1 failed

theorem surplus_shows (buffer : InputBuffer) (mode : buffer.readingMode = eventsMode unicode)
    (nonempty : surplus ≠ []) : ∃ requests : List ReadRequest, (∀ request ∈ requests, request.unicode = unicode) ∧
      ({ buffer with cachedInputEvents := buffer.cachedInputEvents ++ surplus } : InputBuffer).reads cp requests ≠
        buffer.reads cp requests := by
  obtain ⟨total, isTotal⟩ : ∃ total, total = (buffer.pendingEvents cp unicode).length := ⟨_, rfl⟩
  obtain ⟨longer, isLonger⟩ : ∃ longer : InputBuffer,
      longer = { buffer with cachedInputEvents := buffer.cachedInputEvents ++ surplus } := ⟨_, rfl⟩
  have longerMode : longer.readingMode = eventsMode unicode := by rw [isLonger]; exact mode
  have positive : 0 < surplus.length := length_pos_iff.mpr nonempty
  have longerTotal : (longer.pendingEvents cp unicode).length = total + surplus.length := by
    rw [isLonger, isTotal]
    simp only [pendingEvents, length_append]
    omega
  obtain ⟨-, shortMode, shortLeft⟩ := plain_read_takes cp unicode total mode (by omega)
  obtain ⟨-, leftMode, longLeft⟩ := plain_read_takes cp unicode total longerMode (by omega)
  rw [isTotal, drop_length, ← isTotal] at shortLeft
  have shortLast := plain_read_nothing cp unicode shortMode shortLeft
  have longLast := (plain_read_takes cp unicode 1 leftMode (by rw [longLeft, length_drop]; omega)).1
  refine ⟨[plainRequest unicode total, plainRequest unicode 1], ?_, fun same => ?_⟩
  · intro request member
    rcases mem_cons.mp member with rfl | last
    · rfl
    · rw [mem_singleton.mp last]
      rfl
  · rw [← isLonger] at same
    simp only [reads, cons.injEq] at same
    have lengths := congrArg (fun result => result.events.length) same.2.1
    rw [shortLast, longLast, longLeft, length_take, length_drop, length_nil] at lengths
    omega

theorem peek_transparent_iff (buffer : InputBuffer) (amount : Nat) (waitForData stream : Bool) :
    (∀ requests : List ReadRequest, (∀ request ∈ requests, request.unicode = unicode) →
      (buffer.read cp (peekRequest amount waitForData unicode stream)).1.reads cp requests = buffer.reads cp requests) ↔
      ¬ buffer.Straddles cp amount unicode stream := by
  obtain ⟨aligned, straddling⟩ := peek_result cp buffer amount waitForData unicode stream
  constructor
  · intro transparent straddles
    obtain ⟨surplus, nonempty, isAfter⟩ := straddling straddles
    obtain ⟨requests, sameMode, differ⟩ := surplus_shows cp unicode (buffer.switchReadingMode (eventsMode unicode))
      switch_mode nonempty
    have kept := transparent requests sameMode
    rw [isAfter, ← reads_switched cp buffer sameMode] at kept
    exact differ kept
  · intro fits requests sameMode
    rw [aligned fits]
    exact reads_switched cp buffer sameMode

end InputBuffer

end

def keyPress (wch : Unicode.WChar) : InputRecord := .key ⟨1, 1, 0, 0, wch, 0⟩

namespace InputBuffer

-- Peeking at one event of a key with two bytes: the second byte then is read
-- before the first one and once more after it.
theorem peek_repeats_byte : let buffer : InputBuffer := ⟨[], [], [], .inputEventsA, [keyPress 0xE9]⟩
    let readOne := plainRequest false 1
    (buffer.reads utf8CodePage [readOne, readOne, readOne]).map ReadResult.events = [[keyPress 0xC3], [keyPress 0xA9], []] ∧
      ((buffer.read utf8CodePage (peekRequest 1 false false false)).1.reads utf8CodePage [readOne, readOne, readOne]).map
        ReadResult.events = [[keyPress 0xA9], [keyPress 0xC3], [keyPress 0xA9]] := by
  decide +kernel

end InputBuffer

end Cogterm.Host
