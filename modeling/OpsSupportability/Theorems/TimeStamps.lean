import OpsSupportability.CoreDump
import OpsSupportability.ShowEvents

/-! The two converters of time stamps in microseconds, that of `show events` and that of `show core-dump`: the
    seconds that they hand to `localtime`, and the fraction that the first one prints. -/

namespace OpsSupportability
namespace TimeStamps

/-! ### What is handed to `localtime` -/

/-- `t_t` and `microsec` of `convert_to_datetime`, for a text that is long enough. -/
def datetimeParts (str : Text) : Option (Int × Text) :=
  if ShowEvents.minSize ≤ str.length then
    some (Text.atoi (str.take (str.length - ShowEvents.minSize)), str.drop (str.length - ShowEvents.minSize))
  else none

theorem convertToDatetime_eq (clock : Int → Text) (str : Text) :
    ShowEvents.convertToDatetime clock str =
      match datetimeParts str with
      | some (seconds, microsec) => (clock seconds ++ ['.'] ++ microsec).take (ShowEvents.bufSize - 1)
      | none => [] := by
  rw [ShowEvents.convertToDatetime, datetimeParts]
  split <;> rfl

/-- `t_t` of `convert_to_date_and_time`. -/
def dateAndTimeSeconds (str : Text) (isMicrores : Bool) : Option Int :=
  if CoreDump.minSize ≤ str.length then
    some (if isMicrores then (Text.atoll str).tdiv CoreDump.microSecInSec else Text.atoll str)
  else none

/-- What `convert_to_date_and_time` makes of the seconds. -/
def dateAndTime (env : CoreDump.Env) (seconds : Int) : CoreDump.Defined (Text × Text) := do
  let (date, time) ← env.localtime seconds
  let timestring ← CoreDump.strftime CoreDump.timeStrSize time
  let datestring ← CoreDump.strftime CoreDump.dateStrSize date
  return (datestring, timestring)

theorem convertToDateAndTime_eq (env : CoreDump.Env) (str : Text) (isMicrores : Bool) :
    CoreDump.convertToDateAndTime env str isMicrores =
      match dateAndTimeSeconds str isMicrores with
      | some seconds => dateAndTime env seconds
      | none => some ([], []) := by
  rw [CoreDump.convertToDateAndTime, dateAndTimeSeconds]
  split <;> rfl

theorem strftime_eq_some_iff {size : Nat} {text text' : Text} :
    CoreDump.strftime size text = some text' ↔ text = text' ∧ text'.length < size := by
  rw [CoreDump.strftime]
  split
  · next h => exact ⟨fun heq => ⟨Option.some.inj heq, Option.some.inj heq ▸ h⟩, fun ⟨heq, _⟩ => congrArg some heq⟩
  · next h => exact ⟨nofun, fun ⟨heq, hlt⟩ => absurd (heq ▸ hlt) h⟩

/-- There are a date and a time, and they fit their arrays. -/
theorem dateAndTime_eq_some_iff {env : CoreDump.Env} {seconds : Int} {date time : Text} :
    dateAndTime env seconds = some (date, time) ↔
      env.localtime seconds = some (date, time) ∧ date.length < CoreDump.dateStrSize ∧
        time.length < CoreDump.timeStrSize := by
  rw [dateAndTime, Option.bind_eq_bind, Option.bind_eq_some_iff]
  constructor
  · rintro ⟨⟨date', time'⟩, hlocal, h⟩
    obtain ⟨_, htime, h⟩ := Option.bind_eq_some_iff.mp h
    obtain ⟨_, hdate, h⟩ := Option.bind_eq_some_iff.mp h
    obtain ⟨rfl, htime⟩ := strftime_eq_some_iff.mp htime
    obtain ⟨rfl, hdate⟩ := strftime_eq_some_iff.mp hdate
    obtain ⟨rfl, rfl⟩ := Prod.mk.inj (Option.some.inj h)
    exact ⟨hlocal, hdate, htime⟩
  · rintro ⟨hlocal, hdate, htime⟩
    refine ⟨_, hlocal, ?_⟩
    simp only [strftime_eq_some_iff.mpr ⟨rfl, htime⟩, strftime_eq_some_iff.mpr ⟨rfl, hdate⟩, Option.bind_eq_bind,
      Option.bind_some]
    rfl

/-- A time of this calendar has a date that fits. -/
theorem dateAndTime_calendar (env : CoreDump.Env) (seconds : Int) (hmin : 0 ≤ seconds) (hmax : seconds ≤ 10 ^ 11) :
    ∃ date time, env.localtime seconds = some (date, time) ∧ dateAndTime env seconds = some (date, time) := by
  obtain ⟨date, time, hlocal, hdate, htime⟩ := env.localtime_calendar seconds hmin hmax
  exact ⟨date, time, hlocal, dateAndTime_eq_some_iff.mpr ⟨hlocal, hdate ▸ by decide, htime ▸ by decide⟩⟩

/-- The date is undefined where the seconds have none that fits. -/
theorem convertToDateAndTime_isSome_iff {env : CoreDump.Env} {str : Text} {isMicrores : Bool} :
    (CoreDump.convertToDateAndTime env str isMicrores).isSome = true ↔
      ∀ seconds, dateAndTimeSeconds str isMicrores = some seconds → (dateAndTime env seconds).isSome = true := by
  rw [convertToDateAndTime_eq]
  cases dateAndTimeSeconds str isMicrores with
  | none => exact iff_of_true rfl nofun
  | some seconds => exact ⟨fun h _ heq => Option.some.inj heq ▸ h, fun h => h seconds rfl⟩

/-! ### The two converters -/

/-- A time stamp of 6 to 18 decimal digits. -/
structure IsStamp (str : Text) : Prop where
  digits : ∀ c ∈ str, c.isDigit = true
  min : 6 ≤ str.length
  max : str.length ≤ 18

/-- The microseconds since the epoch. -/
def micros (str : Text) : Nat := Nat.ofDigitChars 10 str 0

/-- Both hand the whole seconds to `localtime`, and the six digits of the rest are printed. -/
def Agree (str : Text) : Prop :=
  datetimeParts str = some (((micros str / 1000000 : Nat) : Int), Text.padded 6 (micros str % 1000000)) ∧
    dateAndTimeSeconds str true = some ((micros str / 1000000 : Nat) : Int)

instance (str : Text) : Decidable (Agree str) := inferInstanceAs (Decidable (_ ∧ _))

variable {str : Text}

theorem dateAndTimeSeconds_of_stamp (h : IsStamp str) :
    dateAndTimeSeconds str true = some ((micros str / 1000000 : Nat) : Int) := by
  have hlt : Nat.ofDigitChars 10 str 0 < 10 ^ 18 :=
    (Text.ofDigitChars_lt h.digits).trans_le (Nat.pow_le_pow_right (by decide) h.max)
  have hcap : max (-2 ^ 63) (min (Nat.ofDigitChars 10 str 0 : Int) (2 ^ 63 - 1)) = Nat.ofDigitChars 10 str 0 := by
    omega
  have hmin : CoreDump.minSize ≤ str.length := h.min
  rw [dateAndTimeSeconds, if_pos hmin, if_pos rfl, Text.atoll_of_isDigit h.digits, hcap]
  rfl

theorem datetimeParts_of_stamp (h : IsStamp str) :
    datetimeParts str =
      some (((micros str / 1000000 : Nat) : Int).bmod (2 ^ 32), Text.padded 6 (micros str % 1000000)) := by
  obtain ⟨hquot, hrem⟩ := Text.ofDigitChars_take_drop 6 h.min h.digits
  have hlen : (str.drop (str.length - 6)).length = 6 := by
    rw [List.length_drop]
    exact Nat.sub_sub_self h.min
  have hfraction : Text.padded 6 (micros str % 1000000) = str.drop (str.length - 6) := by
    have hpadded := Text.padded_ofDigitChars (List.ne_nil_of_length_eq_add_one hlen)
      fun c hc => h.digits c (List.mem_of_mem_drop hc)
    rwa [hlen, hrem] at hpadded
  have hprefix : ∀ c ∈ str.take (str.length - 6), c.isDigit = true := fun c hc => h.digits c (List.mem_of_mem_take hc)
  have hmin : ShowEvents.minSize ≤ str.length := h.min
  rw [hfraction, datetimeParts, if_pos hmin, ShowEvents.minSize, Text.atoi_of_isDigit hprefix, hquot]
  rfl

/-- The two agree up to the last second that fits an `int`. -/
theorem agree_iff (h : IsStamp str) : Agree str ↔ micros str / 1000000 < 2 ^ 31 := by
  rw [Agree, datetimeParts_of_stamp h, dateAndTimeSeconds_of_stamp h, and_iff_left rfl, Option.some_inj, Prod.mk_inj,
    and_iff_left rfl, Int.bmod_def]
  split <;> omega

def stamp2016 : Text := "1459547856000000".toList

theorem stamp2016_agree : Agree stamp2016 :=
  (agree_iff ⟨by decide, by decide, by decide⟩).mpr (by decide)

/-- The first second after those of an `int`. -/
def stamp2038 : Text := "2147483648000000".toList

theorem stamp2038_not_agree : ¬ ∀ str, IsStamp str → Agree str := fun h =>
  absurd (h stamp2038 ⟨by decide, by decide, by decide⟩) (by decide)

end TimeStamps
end OpsSupportability
