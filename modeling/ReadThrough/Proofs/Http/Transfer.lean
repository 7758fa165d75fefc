import ReadThrough.Http.Client

/-!
# Values on their way from a node to its peer

A response that a node serves is read by the peer that asked. Read at the instant at which it was
served it brings the value that was served, with the same data and of the lifetime that was left what
fits a word (`readReply_served`). The copy has expired, or expires when that value does just if the
response told this lifetime (`Value.retold_exact`).
-/

namespace ReadThrough

/-! ## Copies that peers make -/

namespace Value

/-- What a peer reads at `now` of a value that is served then: the same data, and of the lifetime
that is left what a word has room for. -/
def retold (value : Value) (now : Millis) : Value :=
  .make now value.data ((value.remaining now).map (· % UInt64.size))

/-- The lifetime that is left of a value fits a word, or a word shows nothing at all of it, so that
what is read has expired. -/
def Told (value : Value) (now : Millis) : Prop :=
  ∀ left, value.remaining now = some left → left < UInt64.size ∨ UInt64.size ∣ left

variable {value : Value} {now : Nat}

/-- The instant at which a copy expires that is made at `now` of a value that expires at
`instant`. -/
def rebased (now instant : Nat) : Nat :=
  now + (instant - now) % UInt64.size

theorem rebased_le (now instant : Nat) : rebased now instant ≤ max now instant := by
  have hrest := Nat.mod_le (instant - now) UInt64.size
  unfold rebased
  omega

/-- A copy that is not expired at once expires when the value does just if the lifetime was told. -/
theorem rebased_eq_iff {now instant : Nat} (h : now < rebased now instant) :
    rebased now instant = instant ↔
      instant - now < UInt64.size ∨ UInt64.size ∣ instant - now := by
  unfold rebased at h ⊢
  constructor
  · intro heq
    have hword : (instant - now) % UInt64.size < UInt64.size := Nat.mod_lt _ (by decide)
    exact .inl (by omega)
  · rintro (hfits | hnothing)
    · rw [Nat.mod_eq_of_lt hfits]
      rw [Nat.mod_eq_of_lt hfits] at h
      omega
    · rw [Nat.mod_eq_zero_of_dvd hnothing] at h
      exact absurd h (Nat.lt_irrefl now)

theorem expiresAt_retold (value : Value) (now : Millis) :
    (value.retold now).expiresAt = value.expiresAt.map (rebased now) := by
  rw [retold, make, remaining, Option.map_map, Option.map_map]
  rfl

theorem expired_iff {instant : Nat} (h : value.expiresAt = some instant) (now : Nat) :
    value.expired now = true ↔ instant ≤ now := by
  rw [expired, h, Option.any_some, decide_eq_true_eq]

theorem told_iff {instant : Nat} (h : value.expiresAt = some instant) (now : Nat) :
    value.Told now ↔ instant - now < UInt64.size ∨ UInt64.size ∣ instant - now := by
  simp [Told, remaining, h]

theorem told_of_lasting (h : value.expiresAt = none) (now : Millis) : value.Told now := by
  simp [Told, remaining, h]

theorem told_of_lt {instant : Nat} (h : value.expiresAt = some instant)
    (hword : instant < now + UInt64.size) : value.Told now := by
  have hpositive : 0 < UInt64.size := by decide
  rw [told_iff h]
  omega

theorem expiresAt_retold_some {instant : Nat} (h : value.expiresAt = some instant) (now : Nat) :
    (value.retold now).expiresAt = some (rebased now instant) := by
  rw [expiresAt_retold, h, Option.map_some]

/-- What a peer reads of a value that has expired has expired as well. -/
theorem expired_retold {later : Millis} (hlater : now ≤ later)
    (h : value.expired later = true) : (value.retold now).expired later = true := by
  obtain ⟨instant, hinstant, hover⟩ := (Option.any_eq_true _ _).1 h
  rw [expired_iff (expiresAt_retold_some hinstant now)]
  exact Nat.le_trans (rebased_le now instant) (Nat.max_le.2 ⟨hlater, of_decide_eq_true hover⟩)

/-- What a peer reads of a value has expired, or expires when the value does just if the lifetime
was told. -/
theorem retold_exact (value : Value) (now : Nat) : (value.retold now).expired now = true ∨
    ((value.retold now).expiresAt = value.expiresAt ↔ value.Told now) := by
  cases hinstant : value.expiresAt with
  | none => exact .inr (by simp [expiresAt_retold, hinstant, told_of_lasting hinstant])
  | some instant =>
      have hcopy := expiresAt_retold_some hinstant now
      by_cases hlive : now < rebased now instant
      · exact .inr (by rw [hcopy, told_iff hinstant, ← rebased_eq_iff hlive, Option.some_inj])
      · exact .inl ((expired_iff hcopy now).2 (Nat.le_of_not_lt hlive))

end Value

namespace Decimal

theorem digit?_of_isDigit {c : Char} (h : c.isDigit = true) :
    digit? c = some (c.toNat - '0'.toNat) := by
  simp only [Char.isDigit, Bool.and_eq_true, decide_eq_true_eq] at h
  exact if_pos h

/-- Digits are read as the number that they write. -/
theorem digitsFrom?_of_isDigit {digits : List Char} (h : ∀ c ∈ digits, c.isDigit = true) (n : Nat) :
    digitsFrom? n digits = some (Nat.ofDigitChars 10 digits n) := by
  induction digits generalizing n with
  | nil => rfl
  | cons c rest ih =>
      rw [digitsFrom?, digit?_of_isDigit (h c List.mem_cons_self), Nat.ofDigitChars_cons]
      exact ih (fun other hmem ↦ h other (List.mem_cons_of_mem _ hmem)) _

theorem toList_toString (n : Nat) : (toString n).toList = Nat.toDigits 10 n :=
  Nat.toList_repr

theorem isDigit_of_mem_toString {n : Nat} {c : Char} (h : c ∈ (toString n).toList) :
    c.isDigit = true :=
  Nat.isDigit_of_mem_toDigits (by decide) (by decide) (toList_toString n ▸ h)

/-- A word that is written with digits is read back. -/
theorem word?_toString {n : Nat} (h : n < UInt64.size) : word? (toString n) = some n := by
  have hdigits : ∀ c ∈ (toString n).toList, c.isDigit = true := fun _ ↦ isDigit_of_mem_toString
  have hvalue : Nat.ofDigitChars 10 (toString n).toList 0 = n := by
    rw [toList_toString]
    exact Nat.ofDigitChars_toDigits (by decide) (by decide)
  rw [word?, unsigned?]
  cases hlist : (toString n).toList with
  | nil => exact absurd (toList_toString n ▸ hlist) Nat.toDigits_ne_nil
  | cons c rest =>
      rw [hlist] at hdigits hvalue
      have hplus : c ≠ '+' := by
        rintro rfl
        exact absurd (hdigits _ List.mem_cons_self) (by decide)
      split
      · next heq => exact absurd (List.cons.inj heq).1 hplus
      · rw [digits?, digitsFrom?_of_isDigit hdigits, hvalue]
        exact if_pos (Nat.le_pred_of_lt h)

end Decimal

namespace Http

variable {text : String}

/-- A header may hold digits. -/
theorem isReadable_expires (h : ∀ c ∈ text.toList, c.isDigit = true) :
    isReadable (expiresHeader, text) = true := by
  have hname : (!expiresHeader.isEmpty && expiresHeader.toList.all isTokenChar) = true := by
    decide +kernel
  rw [isReadable, hname, Bool.true_and, List.all_eq_true]
  intro c hmem
  have hdigit := h c hmem
  simp only [Char.isDigit, Bool.and_eq_true, decide_eq_true_eq, ge_iff_le, UInt32.le_iff_toNat_le]
    at hdigit
  simp only [Bool.or_eq_true, Bool.and_eq_true, decide_eq_true_eq]
  have hlow : '0'.val.toNat = 48 := rfl
  have hhigh : '9'.val.toNat = 57 := rfl
  have hval : c.toNat = c.val.toNat := rfl
  omega

/-- Nothing is taken off digits. -/
theorem dropWhile_digits {p : Char → Bool} {digits : List Char}
    (h : ∀ c ∈ digits, c.isDigit = true) (hp : ∀ c : Char, c.isDigit = true → p c = false) :
    digits.dropWhile p = digits := by
  cases digits with
  | nil => rfl
  | cons c rest =>
      rw [List.dropWhile_cons, hp c (h c List.mem_cons_self), if_neg Bool.false_ne_true]

/-- A lifetime on a response is read as it was written. -/
theorem header?_expires (h : ∀ c ∈ text.toList, c.isDigit = true) (status : Nat)
    (body : ByteArray) :
    Response.header? ⟨status, [("content-type", valueType), (expiresHeader, text)], body⟩
      expiresHeader = some text := by
  have hfirst : "content-type".toLower ≠ expiresHeader := by decide +kernel
  have hsecond : expiresHeader.toLower = expiresHeader := by decide +kernel
  have hpad : ∀ c : Char, c.isDigit = true → (decide (c = ' ') || decide (c = '\t')) = false := by
    intro c hdigit
    rw [Bool.or_eq_false_iff]
    constructor
    all_goals
      refine decide_eq_false ?_
      rintro rfl
      exact absurd hdigit (by decide)
  have hreversed : ∀ c ∈ text.toList.reverse, c.isDigit = true :=
    fun c hmem ↦ h c (List.mem_reverse.1 hmem)
  simp [Response.header?, hfirst, hsecond, dropWhile_digits h hpad, dropWhile_digits hreversed hpad]

/-- Where no lifetime stands on a response none is read. -/
theorem header?_lasting (status : Nat) (body : ByteArray) :
    Response.header? ⟨status, [("content-type", valueType)], body⟩ expiresHeader = none := by
  have hfirst : "content-type".toLower ≠ expiresHeader := by decide +kernel
  simp [Response.header?, hfirst]

/-- The response that comes back, whole or broken off. -/
def Reply.response? : Reply → Option Response
  | .nothing => none
  | .cut response | .whole response => some response

/-- What is read of a final response: a failure of the peer, the absence of the key where the status
is 404, or a value where it is 200. -/
theorem readResponse_cases (now : Millis) (peer key : String) (response : Response)
    (body : Option ByteArray) :
    (∃ reason, readResponse now peer key response body = .error (.transportFailure peer reason)) ∨
    response.status = 404 ∧ readResponse now peer key response body = .error (.notFound key) ∨
    response.status = 200 ∧ ∃ value, readResponse now peer key response body = .ok value := by
  unfold readResponse
  split
  · next hok =>
    cases body with
    | none => exact .inl ⟨_, rfl⟩
    | some data => exact .inr (.inr ⟨hok, _, rfl⟩)
  · split
    · next habsent => exact .inr (.inl ⟨habsent, rfl⟩)
    · exact .inl ⟨_, rfl⟩

/-- What is read of a reply: a failure of the peer, or what is read of a final response. -/
theorem readReply_cases (now : Millis) (peer url key : String) (reply : Reply) :
    (∃ reason, readReply now peer url key reply = .error (.transportFailure peer reason)) ∨
    ∃ response, reply.response? = some response ∧
      (response.status = 404 ∧ readReply now peer url key reply = .error (.notFound key) ∨
        response.status = 200 ∧ ∃ value, readReply now peer url key reply = .ok value) := by
  have hfinal (response : Response) (body : Option ByteArray) {read : Outcome}
      (hread : read =
        if !response.isFinal then .error (.transportFailure peer (noResponse url))
        else if response.isRedirect then
          .error (.transportFailure peer ("error following redirect for url (" ++ url ++ ")"))
        else readResponse now peer key response body) :
      (∃ reason, read = .error (.transportFailure peer reason)) ∨
        response.status = 404 ∧ read = .error (.notFound key) ∨
        response.status = 200 ∧ ∃ value, read = .ok value := by
    split at hread
    · exact .inl ⟨_, hread⟩
    · split at hread
      · exact .inl ⟨_, hread⟩
      · exact hread ▸ readResponse_cases now peer key response body
  cases reply with
  | nothing => exact .inl ⟨_, rfl⟩
  | cut response =>
      exact (hfinal response none rfl).imp_right fun hstatus ↦ ⟨response, rfl, hstatus⟩
  | whole response =>
      exact (hfinal response (some response.body) rfl).imp_right fun hstatus ↦
        ⟨response, rfl, hstatus⟩

/-- Values are read from responses of status 200 alone. -/
theorem status_of_readReply {now : Millis} {peer url key : String} {response : Response}
    {copy : Value} (h : readReply now peer url key (.whole response) = .ok copy) :
    response.status = 200 := by
  rcases readReply_cases now peer url key (.whole response) with ⟨reason, hread⟩ |
    ⟨other, hother, ⟨-, hread⟩ | ⟨hstatus, -⟩⟩
  · cases h.symm.trans hread
  · cases h.symm.trans hread
  · cases hother
    exact hstatus

/-- A value that is read at the instant at which it was served has the data and the lifetime that
was left, as far as this fits a word. -/
theorem readReply_value (now : Millis) (peer url key : String) (value : Value) :
    readReply now peer url key (.whole (.served now (.ok value))) = .ok (value.retold now) := by
  have htype : isReadable ("content-type", valueType) = true := by decide +kernel
  cases hleft : value.remaining now with
  | none =>
      simp [readReply, readResponse, Response.served, Response.typed, Response.isFinal,
        Response.isRedirect, Value.retold, hleft, htype, header?_lasting]
  | some left =>
      have hword := Decimal.word?_toString (Nat.mod_lt left (by decide : 0 < UInt64.size))
      have hdigits : ∀ c ∈ (toString (left % UInt64.size)).toList, c.isDigit = true :=
        fun _ ↦ Decimal.isDigit_of_mem_toString
      simp only [Response.served, Value.retold, hleft, Option.map_some]
      -- the text matters no more than that it is made of digits and is read as this number
      generalize toString (left % UInt64.size) = text at hword hdigits
      simp [readReply, readResponse, Response.typed, Response.isFinal, Response.isRedirect, htype,
        header?_expires hdigits, isReadable_expires hdigits, hword]

/-- What is read as a value was served as one. -/
theorem readReply_served {now : Millis} {peer url key : String} {outcome : Outcome} {copy : Value}
    (h : readReply now peer url key (.whole (.served now outcome)) = .ok copy) :
    ∃ value, outcome = .ok value ∧ copy = value.retold now := by
  cases outcome with
  | ok value =>
      rw [readReply_value] at h
      exact ⟨value, rfl, (Except.ok.inj h).symm⟩
  | error fault =>
      have hstatus : statusOf fault = 200 := status_of_readReply h
      cases fault <;> cases hstatus

end Http

end ReadThrough
