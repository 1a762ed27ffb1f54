/-
Days and moments are read back from their standard texts.

* `Iso.Bytes.Spells` — the bytes from a place on are the characters of a text;
* `Iso.spells_bytes` — so they are from the start on, if all characters are of ASCII;
* `Iso.Bytes.Spells.number` — a number of so many digits is read where it is spelled;
* `Iso.readDay?_toText`, `Iso.readClock?_moment`, `Iso.offsetAt_of_spells`, `Iso.readOffset?_toText` —
  a day, a time of day, the place behind it, and an offset;
* `Iso.readMoment?_toText`, `Iso.readMoment?_toIso` — a day is read back as its midnight, and a moment
  as it is, except that an offset of less than a second is read as universal time.
-/
import Mathlib.Data.List.Induction
import Tender.Calendar.Iso
import Tender.Proofs.Number.Decimal

namespace Tender

theorem Date.lt_ten_pow (d : Date) : d.year < 10 ^ 4 ∧ d.month < 10 ^ 2 ∧ d.day < 10 ^ 2 := by
  obtain ⟨-, hyear, -, hmonth, -, hday⟩ := d.isDay
  have hdays : Calendar.daysInMonth d.year d.month ≤ 31 := by
    unfold Calendar.daysInMonth
    repeat' split
    all_goals decide
  omega

/-! ### Bytes -/

namespace Iso

variable {b : Bytes} {i n width stop : Nat} {s t : Text}

/-- The bytes of a text. -/
def bytes (s : Text) : Bytes := ⟨(String.ofList s).toUTF8.data⟩

namespace Bytes

/-- The bytes from a place on are the characters of the text. -/
def Spells (b : Bytes) : Nat → Text → Prop
  | _, [] => True
  | i, c :: s => b.at i = c.toNat ∧ b.Spells (i + 1) s

theorem spells_append : b.Spells i (s ++ t) ↔ b.Spells i s ∧ b.Spells (i + s.length) t := by
  induction s generalizing i with
  | nil => simp [Spells]
  | cons c s ih =>
    rw [List.cons_append, Spells, Spells, ih, List.length_cons, and_assoc, Nat.add_assoc,
      Nat.add_comm 1]

theorem digitAt_of_at {c : Char} (h : b.at i = c.toNat) : b.digitAt i = c.isDigit := by
  rw [Bool.eq_iff_iff, Char.isDigit_iff_toNat, digitAt, h, Bool.and_eq_true, decide_eq_true_iff,
    decide_eq_true_iff]
  rfl

/-- A digit is no other character. -/
theorem is_of_digitAt {c : Char} (h : b.digitAt i = true) (hc : c.isDigit = false) :
    b.is i c = false := by
  rw [Bytes.is, beq_eq_false_iff_ne]
  intro heq
  rw [digitAt_of_at heq, hc] at h
  cases h

theorem digits?_succ (b : Bytes) (start count : Nat) :
    b.digits? start (count + 1) = (b.digits? start count).bind fun n =>
      if b.digitAt (start + count) then some (n * 10 + (b.at (start + count) - 0x30)) else none := by
  rw [digits?, digits?, List.range_succ, List.foldl_append]
  rfl

theorem digits?_of_spells (h : b.Spells i s) (hs : ∀ c ∈ s, c.isDigit = true) :
    b.digits? i s.length = some (Decimal.digitsValue s) := by
  induction s using List.reverseRecOn with
  | nil => rfl
  | append_singleton s c ih =>
    obtain ⟨hfirst, hlast, -⟩ := spells_append.1 h
    have hvalue : Decimal.digitsValue (s ++ [c]) =
        Decimal.digitsValue s * 10 + (c.toNat - '0'.toNat) := by
      rw [Decimal.digitsValue, List.foldl_append]
      rfl
    rw [List.length_append, List.length_singleton, digits?_succ,
      ih hfirst fun d hd => hs d (List.mem_append_left _ hd), Option.bind_some, hvalue,
      digitAt_of_at hlast, hs c (List.mem_append_right _ (List.mem_singleton_self c)), hlast]
    rfl

/-- A number of so many digits is read where it is spelled, and what follows it is spelled behind. -/
theorem Spells.number (h : b.Spells i (Text.padded width n ++ s)) (hwidth : 0 < width)
    (hn : n < 10 ^ width) :
    b.digits? i width = some n ∧ b.digitAt i = true ∧ b.Spells (i + width) s := by
  have hlength := Text.length_padded hwidth hn
  obtain ⟨hnumber, hrest⟩ := spells_append.1 h
  rw [hlength] at hrest
  refine ⟨?_, ?_, hrest⟩
  · have hdigits := digits?_of_spells hnumber fun c => Text.isDigit_of_mem_padded
    rwa [hlength, Decimal.digitsValue_padded] at hdigits
  · cases hpadded : Text.padded width n with
    | nil =>
      rw [hpadded] at hlength
      exact absurd hlength hwidth.ne
    | cons c rest =>
      rw [hpadded] at hnumber
      rw [digitAt_of_at hnumber.1]
      exact Text.isDigit_of_mem_padded (hpadded ▸ List.mem_cons_self)

end Bytes

theorem bytes_toList (h : ∀ c ∈ s, c.toNat < 0x80) :
    (bytes s).data.toList = s.map fun c => UInt8.ofNat c.toNat := by
  have hdata : (bytes s).data.toList = s.flatMap String.utf8EncodeChar :=
    List.toList_data_toByteArray
  rw [hdata]
  induction s with
  | nil => rfl
  | cons c s ih =>
    obtain ⟨hc, hs⟩ := List.forall_mem_cons.1 h
    have hchar : String.utf8EncodeChar c = [UInt8.ofNat c.toNat] := if_pos (Nat.le_of_lt_succ hc)
    rw [List.flatMap_cons, List.map_cons, hchar, ih hs (by exact List.toList_data_toByteArray)]
    rfl

theorem size_bytes (h : ∀ c ∈ s, c.toNat < 0x80) : (bytes s).data.size = s.length := by
  rw [← Array.length_toList, bytes_toList h, List.length_map]

theorem at_bytes (h : ∀ c ∈ s, c.toNat < 0x80) (i : Nat) :
    (bytes s).at i = (s[i]?.map Char.toNat).getD 0 := by
  rw [Bytes.at, Array.getD_eq_getD_getElem?, ← Array.getElem?_toList, bytes_toList h,
    List.getElem?_map]
  cases hi : s[i]? with
  | none => rfl
  | some c =>
    have hc := h c (List.mem_of_getElem? hi)
    exact Nat.mod_eq_of_lt (Nat.lt_trans hc (by decide))

/-- Behind the end there is nothing. -/
theorem at_bytes_length (h : ∀ c ∈ s, c.toNat < 0x80) : (bytes s).at s.length = 0 := by
  rw [at_bytes h, List.getElem?_eq_none (Nat.le_refl _)]
  rfl

/-- The bytes of a text of ASCII characters are its characters. -/
theorem spells_bytes (h : ∀ c ∈ s, c.toNat < 0x80) : (bytes s).Spells 0 s := by
  suffices hrest : ∀ before rest, s = before ++ rest → (bytes s).Spells before.length rest from
    hrest [] s rfl
  intro before rest heq
  -- on what is left, since a place is told by how much stands in front of it
  induction rest generalizing before with
  | nil => trivial
  | cons c rest ih =>
    refine ⟨?_, ?_⟩
    · rw [at_bytes h, heq, List.getElem?_append_right (Nat.le_refl _), Nat.sub_self]
      rfl
    · have hnext := ih (before ++ [c]) (by rw [heq, List.append_assoc]; rfl)
      rwa [List.length_append, List.length_singleton] at hnext

/-! ### Days -/

/-- Ten bytes are a day, whatever stands behind them. -/
theorem readDay?_toText {d : Date} (h : b.Spells 0 (d.toText ++ s)) {len : Nat} (hlen : len ≠ 7) :
    separatorAt b len = some 10 ∧ readDay? b 10 = some d ∧ b.Spells 10 s := by
  obtain ⟨hyear, hmonth, hday⟩ := d.lt_ten_pow
  simp only [Date.toText, List.append_assoc, List.cons_append] at h
  obtain ⟨hy, -, hhyphen, h⟩ := h.number (by decide) hyear
  obtain ⟨hm, hdigit, hhyphen', h⟩ := h.number (by decide) hmonth
  obtain ⟨hd, -, h⟩ := h.number (by decide) hday
  have hfirst : b.is 4 '-' = true := beq_iff_eq.2 hhyphen
  have hweek : b.is 5 'W' = false := Bytes.is_of_digitAt hdigit rfl
  have hsecond : b.is 7 '-' = true := beq_iff_eq.2 hhyphen'
  refine ⟨?_, ?_, h⟩
  · rw [separatorAt, if_neg hlen, hfirst, hweek]
    rfl
  · have hm : b.digits? 5 2 = some d.month := hm
    have hd : b.digits? 8 2 = some d.day := hd
    simp [readDay?, hy, hfirst, hweek, hm, hsecond, hd, Date.of?, d.isDay]

/-! ### Times of day -/

theorem stepAfter_colon (hstop : i + 1 < stop) (h : b.at i = ':'.toNat) :
    stepAfter b stop i true = some (.next (i + 1)) := by
  rw [stepAfter, if_neg (Nat.not_le_of_lt hstop), Bytes.is, h]
  rfl

theorem stepAfter_point (hstop : i + 1 < stop) (h : b.at i = '.'.toNat) (colons : Bool) :
    stepAfter b stop i colons = some (.fraction (i + 1)) := by
  rw [stepAfter, if_neg (Nat.not_le_of_lt hstop), Bytes.is, Bytes.is, h]
  cases colons <;> rfl

theorem stepAfter_end (b : Bytes) (i : Nat) (colons : Bool) :
    stepAfter b i i colons = some (.done (b.at i != 0)) := by
  rw [stepAfter, if_pos (Nat.le_succ i)]

theorem readFraction?_padded (h : b.Spells i (Text.padded 6 n ++ s)) (hn : n < 10 ^ 6)
    (hend : b.digitAt (i + 6) = false) :
    readFraction? b (i + 6) i = some (n, b.at (i + 6) != 0) := by
  obtain ⟨hdigits, -, -⟩ := h.number (by decide) hn
  have hskip : b.skipDigits (b.data.size + 1) (i + 6) = i + 6 := by
    rw [Bytes.skipDigits, hend]
    rfl
  rw [readFraction?, Nat.add_sub_cancel_left, show min 6 6 = 6 from rfl, hdigits]
  show some (n * Nat.pow 10 (6 - 6), b.at (b.skipDigits _ (i + 6)) != 0) = _
  rw [hskip, Nat.sub_self]
  exact congrArg (fun n => some (n, b.at (i + 6) != 0)) (Nat.mul_one n)

variable {hour minute second micro : Nat}

theorem readClock?_minutes (h : b.Spells i (Text.padded 2 hour ++ ':' :: (Text.padded 2 minute ++ s)))
    (hhour : hour < 10 ^ 2) (hminute : minute < 10 ^ 2) :
    readClock? b i (i + 5) = some ⟨hour, minute, 0, 0, b.at (i + 5) != 0⟩ := by
  obtain ⟨hh, -, hcolon, h⟩ := h.number (by decide) hhour
  obtain ⟨hm, -, -⟩ := h.number (by decide) hminute
  have hcolons : b.is (i + 2) ':' = true := beq_iff_eq.2 hcolon
  have hnext : stepAfter b (i + 5) (i + 2) true = some (.next (i + 3)) :=
    stepAfter_colon (by omega) hcolon
  simp [readClock?, hh, hcolons, hnext, hm, stepAfter_end]

theorem readClock?_seconds (h : b.Spells i (Text.padded 2 hour ++ ':' :: (Text.padded 2 minute ++
      ':' :: (Text.padded 2 second ++ s))))
    (hhour : hour < 10 ^ 2) (hminute : minute < 10 ^ 2) (hsecond : second < 10 ^ 2) :
    readClock? b i (i + 8) = some ⟨hour, minute, second, 0, b.at (i + 8) != 0⟩ := by
  obtain ⟨hh, -, hcolon, h⟩ := h.number (by decide) hhour
  obtain ⟨hm, -, hcolon', h⟩ := h.number (by decide) hminute
  obtain ⟨hs, -, -⟩ := h.number (by decide) hsecond
  have hcolons : b.is (i + 2) ':' = true := beq_iff_eq.2 hcolon
  have hnext : stepAfter b (i + 8) (i + 2) true = some (.next (i + 3)) :=
    stepAfter_colon (by omega) hcolon
  have hnext' : stepAfter b (i + 8) (i + 5) true = some (.next (i + 6)) :=
    stepAfter_colon (by omega) hcolon'
  have hs : b.digits? (i + 6) 2 = some second := hs
  simp [readClock?, hh, hcolons, hnext, hm, hnext', hs, stepAfter_end]

theorem readClock?_micros (h : b.Spells i (Text.padded 2 hour ++ ':' :: (Text.padded 2 minute ++
      ':' :: (Text.padded 2 second ++ '.' :: (Text.padded 6 micro ++ s)))))
    (hhour : hour < 10 ^ 2) (hminute : minute < 10 ^ 2) (hsecond : second < 10 ^ 2)
    (hmicro : micro < 10 ^ 6) (hend : b.digitAt (i + 15) = false) :
    readClock? b i (i + 15) = some ⟨hour, minute, second, micro, b.at (i + 15) != 0⟩ := by
  obtain ⟨hh, -, hcolon, h⟩ := h.number (by decide) hhour
  obtain ⟨hm, -, hcolon', h⟩ := h.number (by decide) hminute
  obtain ⟨hs, -, hpoint, h⟩ := h.number (by decide) hsecond
  have hfraction := readFraction?_padded h hmicro hend
  have hcolons : b.is (i + 2) ':' = true := beq_iff_eq.2 hcolon
  have hnext : stepAfter b (i + 15) (i + 2) true = some (.next (i + 3)) :=
    stepAfter_colon (by omega) hcolon
  have hnext' : stepAfter b (i + 15) (i + 5) true = some (.next (i + 6)) :=
    stepAfter_colon (by omega) hcolon'
  have hlast : stepAfter b (i + 15) (i + 8) true = some (.fraction (i + 9)) :=
    stepAfter_point (by omega) hpoint true
  have hs : b.digits? (i + 6) 2 = some second := hs
  have hfraction : readFraction? b (i + 15) (i + 9) = some (micro, b.at (i + 15) != 0) := hfraction
  simp [readClock?, hh, hcolons, hnext, hm, hnext', hs, hlast, hfraction]

/-- The place behind a time of day: the end, or the sign of an offset. -/
theorem offsetAt_of_spells {fuel : Nat} (h : b.Spells i s)
    (hs : ∀ c ∈ s, c ≠ '+' ∧ c ≠ '-' ∧ c ≠ 'Z') (hfuel : s.length < fuel)
    (hend : s ≠ [] ∧ i + s.length = stop ∨ i + s.length < stop ∧
      (b.is (i + s.length) '+' || b.is (i + s.length) '-' || b.is (i + s.length) 'Z') = true) :
    offsetAt b stop fuel i = i + s.length := by
  induction s generalizing i fuel with
  | nil =>
    obtain ⟨hnil, -⟩ | ⟨-, hsign⟩ := hend
    · exact absurd rfl hnil
    · cases fuel with
      | zero => rfl
      | succ fuel =>
        rw [offsetAt]
        exact if_pos hsign
  | cons c s ih =>
    obtain ⟨hc, hrest⟩ := List.forall_mem_cons.1 hs
    cases fuel with
    | zero => exact absurd hfuel (Nat.not_lt_zero _)
    | succ fuel =>
      have hother {d : Char} (hd : c ≠ d) : b.is i d = false := by
        rw [Bytes.is, h.1, beq_eq_false_iff_ne]
        exact fun heq => hd (Char.toNat_inj.1 heq)
      have hplain : (b.is i '+' || b.is i '-' || b.is i 'Z') = false := by
        rw [hother hc.1, hother hc.2.1, hother hc.2.2]
        rfl
      have hlength : i + (c :: s).length = i + 1 + s.length := by
        rw [List.length_cons]
        omega
      rw [hlength] at hend ⊢
      rw [offsetAt, hplain, if_neg Bool.false_ne_true]
      -- the search goes on only in front of the end
      by_cases hlast : i + 1 < stop
      · rw [if_pos hlast]
        refine ih h.2 hrest (Nat.lt_of_succ_lt_succ hfuel) (hend.imp_left fun hstop => ⟨?_, hstop.2⟩)
        rintro rfl
        exact absurd hstop.2 hlast.ne
      · rw [if_neg hlast]
        have : s.length = 0 := by omega
        omega

end Iso

/-! ### Times of day and offsets in standard texts -/

namespace Offset

/-- The distance as hours and minutes, and seconds and microseconds where they are not zero. -/
def clockText (o : Offset) : Text :=
  let m := o.micros.natAbs
  let whole := m / 1000000
  let micro := m % 1000000
  Text.padded 2 (whole / 3600) ++ ':' :: (Text.padded 2 (whole / 60 % 60) ++
    if micro ≠ 0 then ':' :: (Text.padded 2 (whole % 60) ++ '.' :: Text.padded 6 micro)
    else if whole % 60 ≠ 0 then ':' :: Text.padded 2 (whole % 60)
    else [])

theorem toText_colon (o : Offset) :
    o.toText [':'] = (if o.micros < 0 then '-' else '+') :: o.clockText := by
  simp only [toText, clockText]
  split
  · simp
  · split <;> simp

/-- The offset as it is read back: a distance of less than a second is taken for none. -/
def reread (o : Offset) : Offset :=
  if o.micros.natAbs < 1000000 then universal else o

end Offset

namespace Moment

/-- The time of day, with the microseconds where they are not zero. -/
def clockText (m : Moment) : Text :=
  Text.padded 2 m.hour.val ++ ':' :: (Text.padded 2 m.minute.val ++
    ':' :: (Text.padded 2 m.second.val ++
      if m.micro.val = 0 then [] else '.' :: Text.padded 6 m.micro.val))

/-- The offset where there is one. -/
def offsetText (m : Moment) : Text :=
  match m.offset with
  | some o => o.toText [':']
  | none => []

theorem offsetText_of_none {m : Moment} (h : m.offset = none) : m.offsetText = [] := by
  rw [offsetText, h]

theorem offsetText_of_some {m : Moment} {o : Offset} (h : m.offset = some o) :
    m.offsetText = o.toText [':'] := by
  rw [offsetText, h]

theorem toIso_eq (m : Moment) : m.toIso = m.date.toText ++ 'T' :: (m.clockText ++ m.offsetText) := by
  cases h : m.offset <;> simp [toIso, toText, clockText, offsetText, h]

/-- The moment as it is read back. -/
def reread (m : Moment) : Moment :=
  { m with offset := m.offset.map Offset.reread }

end Moment

namespace Iso

theorem readClock?_offset {o : Offset} (h : b.Spells i o.clockText)
    (hend : b.at (i + o.clockText.length) = 0) :
    readClock? b i (i + o.clockText.length) = some ⟨o.micros.natAbs / 1000000 / 3600,
      o.micros.natAbs / 1000000 / 60 % 60, o.micros.natAbs / 1000000 % 60,
      o.micros.natAbs % 1000000, false⟩ := by
  obtain ⟨hlow, hhigh⟩ := o.within
  rw [microsPerDay] at hlow hhigh
  have hhour : o.micros.natAbs / 1000000 / 3600 < 10 ^ 2 := by omega
  have hminute : o.micros.natAbs / 1000000 / 60 % 60 < 10 ^ 2 := by omega
  have hsecond : o.micros.natAbs / 1000000 % 60 < 10 ^ 2 := by omega
  have hmicro : o.micros.natAbs % 1000000 < 10 ^ 6 := Nat.mod_lt _ (by decide)
  -- the text ends behind the last part that is not zero, and the parts that are missing are zero
  simp only [Offset.clockText] at h hend ⊢
  by_cases hwhole : o.micros.natAbs % 1000000 = 0
  · rw [if_neg (not_not.2 hwhole)] at h hend ⊢
    by_cases hminutes : o.micros.natAbs / 1000000 % 60 = 0
    · rw [if_neg (not_not.2 hminutes)] at h hend ⊢
      simp only [List.length_append, List.length_cons, Text.length_padded, hhour, hminute,
        Nat.reduceLT, List.length_nil] at hend ⊢
      rw [readClock?_minutes h hhour hminute, hend, hwhole, hminutes]
      rfl
    · rw [if_pos hminutes] at h hend ⊢
      simp only [List.length_append, List.length_cons, Text.length_padded, hhour, hminute, hsecond,
        Nat.reduceLT] at hend ⊢
      rw [readClock?_seconds (s := []) (by simpa using h) hhour hminute hsecond, hend, hwhole]
      rfl
  · rw [if_pos hwhole] at h hend ⊢
    simp only [List.length_append, List.length_cons, Text.length_padded, hhour, hminute, hsecond,
      hmicro, Nat.reduceLT] at hend ⊢
    rw [readClock?_micros (s := []) (by simpa using h) hhour hminute hsecond hmicro
      (by rw [Bytes.digitAt, hend]; rfl), hend]
    rfl

theorem readClock?_moment {m : Moment} (h : b.Spells i (m.clockText ++ s))
    (hend : b.digitAt (i + m.clockText.length) = false) :
    readClock? b i (i + m.clockText.length) = some ⟨m.hour.val, m.minute.val, m.second.val,
      m.micro.val, b.at (i + m.clockText.length) != 0⟩ := by
  have hhour : m.hour.val < 10 ^ 2 := Nat.lt_trans m.hour.isLt (by decide)
  have hminute : m.minute.val < 10 ^ 2 := Nat.lt_trans m.minute.isLt (by decide)
  have hsecond : m.second.val < 10 ^ 2 := Nat.lt_trans m.second.isLt (by decide)
  have hmicro : m.micro.val < 10 ^ 6 := m.micro.isLt
  simp only [Moment.clockText] at h hend ⊢
  by_cases hwhole : m.micro.val = 0
  · rw [if_pos hwhole] at h hend ⊢
    simp only [List.length_append, List.length_cons, Text.length_padded, hhour, hminute, hsecond,
      Nat.reduceLT, List.length_nil] at hend ⊢
    rw [readClock?_seconds (by simpa using h) hhour hminute hsecond, hwhole]
  · rw [if_neg hwhole] at h hend ⊢
    simp only [List.length_append, List.length_cons, Text.length_padded, hhour, hminute, hsecond,
      hmicro, Nat.reduceLT] at hend ⊢
    rw [readClock?_micros (by simpa using h) hhour hminute hsecond hmicro hend]

theorem readOffset?_toText {o : Offset} (h : b.Spells i (o.toText [':']))
    (hend : b.at (i + (o.toText [':']).length) = 0) :
    readOffset? b (i + (o.toText [':']).length) i = some o.reread := by
  rw [Offset.toText_colon] at h hend ⊢
  obtain ⟨hsign, hclock⟩ := h
  have hlength : i + (((if o.micros < 0 then '-' else '+') :: o.clockText)).length =
      i + 1 + o.clockText.length := by
    rw [List.length_cons]
    omega
  rw [hlength] at hend ⊢
  have hread := readClock?_offset hclock hend
  have hzero : b.is i 'Z' = false := by
    rw [Bytes.is, hsign]
    split <;> rfl
  have hminus : b.is i '-' = decide (o.micros < 0) := by
    rw [Bytes.is, hsign]
    split <;> simp [*]
  have hwhole : o.micros.natAbs / 1000000 / 3600 * 3600 + o.micros.natAbs / 1000000 / 60 % 60 * 60 +
      o.micros.natAbs / 1000000 % 60 = o.micros.natAbs / 1000000 := by
    omega
  have hmicros : (if decide (o.micros < 0) = true then
      -((o.micros.natAbs / 1000000 : Nat) * 1000000 + (o.micros.natAbs % 1000000 : Nat) : Int)
      else (o.micros.natAbs / 1000000 : Nat) * 1000000 + (o.micros.natAbs % 1000000 : Nat)) =
      o.micros := by
    simp only [decide_eq_true_iff]
    split <;> omega
  simp only [readOffset?, hzero, hread, hminus, Option.bind_eq_bind, Option.bind_some,
    Bool.false_eq_true, if_false, pure, hwhole, hmicros, dif_pos o.within]
  rw [Offset.reread]
  by_cases hsmall : o.micros.natAbs < 1000000
  · rw [if_pos hsmall, if_pos (Nat.div_eq_of_lt hsmall)]
  · rw [if_neg hsmall, if_neg (by omega)]

end Iso

/-! ### The characters of standard texts -/

/-- The characters of times of day. -/
def Iso.timeCharacters : Text := Text.digits ++ [':', '.']

/-- The characters of standard texts. -/
def Iso.characters : Text := Iso.timeCharacters ++ ['-', '+', 'T']

theorem Text.mem_timeCharacters_of_padded {width n : Nat} {c : Char} (h : c ∈ padded width n) :
    c ∈ Iso.timeCharacters :=
  List.mem_append_left _ (mem_digits_of_isDigit (isDigit_of_mem_padded h))

theorem Date.mem_toText {d : Date} {c : Char} (h : c ∈ d.toText) : c ∈ Iso.characters := by
  have hpadded {width n : Nat} (h : c ∈ Text.padded width n) : c ∈ Iso.characters :=
    List.mem_append_left _ (Text.mem_timeCharacters_of_padded h)
  simp only [toText, List.mem_append, List.mem_cons] at h
  obtain (h | rfl | h) | rfl | h := h
  · exact hpadded h
  · decide
  · exact hpadded h
  · decide
  · exact hpadded h

theorem Offset.mem_clockText {o : Offset} {c : Char} (h : c ∈ o.clockText) :
    c ∈ Iso.timeCharacters := by
  simp only [clockText, List.mem_append, List.mem_cons] at h
  obtain h | rfl | h | h := h
  · exact Text.mem_timeCharacters_of_padded h
  · decide
  · exact Text.mem_timeCharacters_of_padded h
  · split at h
    · simp only [List.mem_append, List.mem_cons] at h
      obtain rfl | h | rfl | h := h
      · decide
      · exact Text.mem_timeCharacters_of_padded h
      · decide
      · exact Text.mem_timeCharacters_of_padded h
    · split at h
      · obtain rfl | h := List.mem_cons.1 h
        · decide
        · exact Text.mem_timeCharacters_of_padded h
      · cases h

namespace Moment

theorem mem_clockText {m : Moment} {c : Char} (h : c ∈ m.clockText) : c ∈ Iso.timeCharacters := by
  simp only [clockText, List.mem_append, List.mem_cons] at h
  obtain h | rfl | h | rfl | h | h := h
  · exact Text.mem_timeCharacters_of_padded h
  · decide
  · exact Text.mem_timeCharacters_of_padded h
  · decide
  · exact Text.mem_timeCharacters_of_padded h
  · split at h
    · cases h
    · obtain rfl | h := List.mem_cons.1 h
      · decide
      · exact Text.mem_timeCharacters_of_padded h

theorem mem_offsetText {m : Moment} {c : Char} (h : c ∈ m.offsetText) : c ∈ Iso.characters := by
  cases hm : m.offset with
  | none =>
    rw [offsetText_of_none hm] at h
    cases h
  | some o =>
    rw [offsetText_of_some hm, Offset.toText_colon] at h
    obtain rfl | h := List.mem_cons.1 h
    · split <;> decide
    · exact List.mem_append_left _ (Offset.mem_clockText h)

theorem mem_toIso {m : Moment} {c : Char} (h : c ∈ m.toIso) : c ∈ Iso.characters := by
  rw [toIso_eq, List.mem_append, List.mem_cons, List.mem_append] at h
  obtain h | rfl | h | h := h
  · exact Date.mem_toText h
  · decide
  · exact List.mem_append_left _ (mem_clockText h)
  · exact mem_offsetText h

end Moment

/-! ### Moments -/

namespace Iso

section Characters

variable {s : Text} (hs : ∀ c ∈ s, c ∈ characters)
include hs

/-- What is true of the characters of standard texts is true of those of a text of such. -/
theorem of_mem_characters {P : Char → Bool} (h : characters.all P = true) : ∀ c ∈ s, P c = true :=
  fun c hc => List.all_eq_true.1 h c (hs c hc)

theorem lt_of_mem_characters : ∀ c ∈ s, c.toNat < 0x80 :=
  fun c hc => of_decide_eq_true
    (of_mem_characters hs (P := fun c => decide (c.toNat < 0x80)) (by decide) c hc)

theorem size_of_mem_characters : (String.ofList s).toUTF8.data.size = s.length :=
  size_bytes (lt_of_mem_characters hs)

/-- A text of such characters is not refused for its length or for halves of wide characters. -/
theorem not_refused (hlength : 10 ≤ s.length) :
    ¬ (decide (s.length < 7) || s.any Text.isHalf) = true := by
  have hwhole : s.any Text.isHalf = false := by
    rw [List.any_eq_false]
    intro c hc
    have := of_mem_characters hs (P := fun c => !Text.isHalf c) (by decide) c hc
    rwa [Bool.not_eq_true', ← Bool.not_eq_true] at this
  rw [hwhole, Bool.or_false, decide_eq_true_iff]
  omega

end Characters

theorem bytes_fold (s : Text) : (⟨(String.ofList s).toUTF8.data⟩ : Bytes) = bytes s := rfl

theorem length_toText (d : Date) : d.toText.length = 10 := by
  obtain ⟨hyear, hmonth, hday⟩ := d.lt_ten_pow
  simp only [Date.toText, List.length_append, List.length_cons,
    Text.length_padded (by decide : 0 < 4) hyear, Text.length_padded (by decide) hmonth,
    Text.length_padded (by decide) hday]

/-- A day is read back from its text. -/
theorem readMoment?_toText (d : Date) : readMoment? d.toText = some ⟨d, 0, 0, 0, 0, none⟩ := by
  have hchars : ∀ c ∈ d.toText, c ∈ characters := fun _ => Date.mem_toText
  have hlength := length_toText d
  have hspells : (bytes d.toText).Spells 0 (d.toText ++ []) := by
    rw [List.append_nil]
    exact spells_bytes (lt_of_mem_characters hchars)
  obtain ⟨hseparator, hday, -⟩ := readDay?_toText hspells (by decide : 10 ≠ 7)
  rw [readMoment?, if_neg (not_refused hchars hlength.ge)]
  simp only [bytes_fold, size_of_mem_characters hchars, hlength, hseparator, hday,
    Option.bind_eq_bind, Option.bind_some]
  rfl

section Moments

variable (m : Moment)

theorem length_toIso : m.toIso.length = 11 + m.clockText.length + m.offsetText.length := by
  rw [Moment.toIso_eq, List.length_append, length_toText, List.length_cons, List.length_append]
  omega

theorem spells_toIso : (bytes m.toIso).Spells 0
    (m.date.toText ++ 'T' :: (m.clockText ++ m.offsetText)) := by
  rw [← Moment.toIso_eq]
  exact spells_bytes (lt_of_mem_characters fun _ => Moment.mem_toIso)

theorem spells_clockText : (bytes m.toIso).Spells 11 (m.clockText ++ m.offsetText) :=
  (readDay?_toText (spells_toIso m) (by decide : 10 ≠ 7)).2.2.2

theorem at_toIso_length : (bytes m.toIso).at m.toIso.length = 0 :=
  at_bytes_length (lt_of_mem_characters fun _ => Moment.mem_toIso)

variable {m}

/-- The sign of the offset stands behind the time of day. -/
theorem at_sign {o : Offset} (hm : m.offset = some o) :
    (bytes m.toIso).at (11 + m.clockText.length) = (if o.micros < 0 then '-' else '+').toNat := by
  have hoffset := (Bytes.spells_append.1 (spells_clockText m)).2
  rw [Moment.offsetText_of_some hm, Offset.toText_colon] at hoffset
  exact hoffset.1

theorem length_toIso_of_none (hm : m.offset = none) :
    11 + m.clockText.length = m.toIso.length := by
  rw [length_toIso, Moment.offsetText_of_none hm, List.length_nil, Nat.add_zero]

/-- Where there is an offset, the text goes on behind the time of day. -/
theorem length_clockText_lt {o : Offset} (hm : m.offset = some o) :
    11 + m.clockText.length < m.toIso.length := by
  rw [length_toIso, Moment.offsetText_of_some hm, Offset.toText_colon, List.length_cons]
  omega

/-- No digit stands behind the time of day. -/
theorem digitAt_clockText_length : (bytes m.toIso).digitAt (11 + m.clockText.length) = false := by
  cases hm : m.offset with
  | none =>
    rw [length_toIso_of_none hm, Bytes.digitAt, at_toIso_length]
    rfl
  | some o =>
    rw [Bytes.digitAt_of_at (at_sign hm)]
    split <;> rfl

theorem offsetAt_toIso :
    offsetAt (bytes m.toIso) m.toIso.length m.toIso.length 11 = 11 + m.clockText.length := by
  have hplain : ∀ c ∈ m.clockText, c ≠ '+' ∧ c ≠ '-' ∧ c ≠ 'Z' := by
    intro c hc
    have hall : timeCharacters.all (fun c => c ≠ '+' ∧ c ≠ '-' ∧ c ≠ 'Z') = true := by decide
    exact of_decide_eq_true (List.all_eq_true.1 hall c (Moment.mem_clockText hc))
  have hlength := length_toIso m
  refine offsetAt_of_spells (Bytes.spells_append.1 (spells_clockText m)).1 hplain (by omega) ?_
  cases hm : m.offset with
  | none =>
    refine .inl ⟨?_, length_toIso_of_none hm⟩
    simp [Moment.clockText]
  | some o =>
    refine .inr ⟨length_clockText_lt hm, ?_⟩
    simp only [Bytes.is, at_sign hm]
    split <;> rfl

theorem of?_numbers (m : Moment) (o : Option Offset) :
    Moment.of? m.date m.hour.val m.minute.val m.second.val m.micro.val o =
      some { m with offset := o } := by
  simp [Moment.of?]

/-- A moment is read back from its standard text, but for an offset of less than a second. -/
theorem readMoment?_toIso (m : Moment) : readMoment? m.toIso = some m.reread := by
  have hchars : ∀ c ∈ m.toIso, c ∈ characters := fun _ => Moment.mem_toIso
  have hlength := length_toIso m
  have hend := at_toIso_length m
  obtain ⟨hseparator, hday, hT, -⟩ := readDay?_toText (spells_toIso m)
    (by omega : m.toIso.length ≠ 7)
  have hstart : afterChar (bytes m.toIso) 10 = 11 := by
    rw [afterChar, hT]
    rfl
  have hclock := readClock?_moment (spells_clockText m) digitAt_clockText_length
  rw [readMoment?, if_neg (not_refused hchars (by omega))]
  simp only [bytes_fold, size_of_mem_characters hchars, hseparator, hday, hstart,
    Option.bind_eq_bind, Option.bind_some]
  rw [if_pos (by omega), offsetAt_toIso, hclock, Option.bind_some]
  cases hm : m.offset with
  | none =>
    rw [if_pos (length_toIso_of_none hm), length_toIso_of_none hm, hend]
    exact (of?_numbers m none).trans (by rw [Moment.reread, hm]; rfl)
  | some o =>
    have hoffset := (Bytes.spells_append.1 (spells_clockText m)).2
    rw [Moment.offsetText_of_some hm] at hoffset hlength
    -- the offset is read up to the end of the text, spelled as the end of the offset
    rw [hlength] at hend
    have hread := readOffset?_toText hoffset hend
    rw [← hlength] at hread
    rw [if_neg (length_clockText_lt hm).ne, hread, Option.bind_some]
    exact (of?_numbers m _).trans (by rw [Moment.reread, hm]; rfl)

end Moments
end Iso
end Tender
