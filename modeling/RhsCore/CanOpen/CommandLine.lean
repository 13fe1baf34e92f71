import RhsCore.CanOpen.FilterList
import RhsCore.CanOpen.Service
import RhsCore.Lib.CString

/-!
# The command line of CANopen

`can_open_cli.c` reads what is to be done from its arguments: a letter, then a number in
hexadecimal digits, and for `-s` the bytes of a frame.

A string is the characters before its end.  `unsigned long` is a word.

## Main definitions

* `strtoul`, `strtok` — of the C library, as they are used.
* `canOpenCli` — what the arguments ask for.
* `written` — arguments that ask for something.
* `can_open_cli_round_trip` — what was written is read back.
-/

namespace RhsCore.CanOpen

open CanOpenCli

/-! ## The C library -/

/-- `isspace` -/
def isSpace (c : Char) : Bool :=
  c = ' ' || c = '\t' || c = '\n' || c = '\x0b' || c = '\x0c' || c = '\r'

def hexValue (c : Char) : Option ℕ :=
  if '0' ≤ c ∧ c ≤ '9' then some (c.toNat - '0'.toNat)
  else if 'a' ≤ c ∧ c ≤ 'f' then some (c.toNat - 'a'.toNat + 10)
  else if 'A' ≤ c ∧ c ≤ 'F' then some (c.toNat - 'A'.toNat + 10)
  else none

def hexLoop : CString → ℕ → ℕ
  | [], value => value
  | c :: p, value =>
      match hexValue c with
      | some digit => hexLoop p (16 * value + digit)
      | none => value

/-- A sign at the front, and whether it is a minus. -/
def skipSign : CString → Bool × CString
  | '-' :: p => (true, p)
  | '+' :: p => (false, p)
  | p => (false, p)

def skipHexMark : CString → CString
  | '0' :: 'x' :: p => p
  | '0' :: 'X' :: p => p
  | p => p

/-- `strtoul` with base 16. -/
def strtoul (str : CString) : UInt32 :=
  let (minus, p) := skipSign (str.dropWhile isSpace)
  let value := hexLoop (skipHexMark p) 0
  if 0xFFFFFFFF < value then 0xFFFFFFFF
  else if minus then -(.ofNat value) else .ofNat value

/-- `strchr` -/
def strchr (str : CString) (c : Char) : Option CString :=
  match str.dropWhile (· ≠ c) with
  | [] => none
  | p => some p

/-- `strtok` with blanks: a token, and where the next call goes on. -/
def strtok (str : CString) : Option (CString × CString) :=
  match str.dropWhile (· = ' ') with
  | [] => none
  | p => some (p.takeWhile (· ≠ ' '), (p.dropWhile (· ≠ ' ')).drop 1)

/-! ## The source -/

inductive Request
  | filter (command : Command)
  | send (m : Message)
  | manual
  | invalid
  deriving DecidableEq

/-- What follows the first blank, unless it is the end. -/
def behindBlank (str : CString) : Option CString :=
  match strchr str ' ' with
  | some (_ :: c :: p) => some (c :: p)
  | _ => none

/-- The loop over the tokens, with so much space left. -/
def readData : ℕ → CString → List UInt8
  | 0, _ => []
  | space + 1, str =>
      match strtok str with
      | none => []
      | some (token, str) => (strtoul token).toUInt8 :: readData space str

/-- The array after `memcpy`. -/
def payload (data : List UInt8) : Payload := Vector.ofFn fun i => data.getD i 0

def sendRequest (value : UInt32) (argument : Option CString) : Request :=
  let data := (argument.bind behindBlank).elim [] (readData 8)
  .send { cobId := value.toUInt16, rtr := false, len := .ofNat data.length, data := payload data }

/-- `can_open_cli`; `none` is `NULL`. -/
def canOpenCli : Option CString → Request
  | none => .invalid
  | some args =>
      let argument := behindBlank args
      let value := argument.elim 0 strtoul
      match args with
      | '-' :: 'f' :: _ => .filter (.add value.toUInt16)
      | '-' :: 'e' :: _ => .filter (.remove value.toUInt16)
      | '-' :: 'c' :: _ => .filter .clear
      | '-' :: 'l' :: _ => .filter .list
      | '-' :: 's' :: _ => sendRequest value argument
      | '-' :: 'm' :: _ => .manual
      | _ => .invalid

/-! ## Writing -/

def hexChar (digit : Fin 16) : Char := Nat.digitChar digit

def hexText (digits : List (Fin 16)) : CString := digits.map hexChar

/-- The four digits of a word. -/
def digits16 (n : UInt16) : List (Fin 16) :=
  [.ofNat 16 (n.toNat / 4096), .ofNat 16 (n.toNat / 256), .ofNat 16 (n.toNat / 16),
    .ofNat 16 n.toNat]

/-- The two digits of a byte. -/
def digits8 (b : UInt8) : List (Fin 16) := [.ofNat 16 (b.toNat / 16), .ofNat 16 b.toNat]

/-- The bytes of a frame, each behind a blank. -/
def dataText (data : List UInt8) : CString := data.flatMap fun b => ' ' :: hexText (digits8 b)

/-- Arguments for a request. -/
def written : Request → CString
  | .filter (.add id) => '-' :: 'f' :: ' ' :: hexText (digits16 id)
  | .filter (.remove id) => '-' :: 'e' :: ' ' :: hexText (digits16 id)
  | .filter .clear => ['-', 'c']
  | .filter .list => ['-', 'l']
  | .send m =>
      '-' :: 's' :: ' ' ::
        (hexText (digits16 m.cobId) ++ dataText (m.data.toList.take m.len.toNat))
  | .manual => ['-', 'm']
  | .invalid => []

/-- The frames that can be asked for. -/
structure Sendable (m : Message) : Prop where
  rtr : m.rtr = false
  len : m.len.toNat ≤ 8
  zero : ∀ i : Fin 8, m.len.toNat ≤ i.val → m.data[i] = 0

def Request.WellFormed : Request → Prop
  | .send m => Sendable m
  | _ => True

/-! ## Numbers -/

@[simp] theorem hexValue_hexChar (digit : Fin 16) :
    hexValue (hexChar digit) = some digit.val := by
  revert digit
  decide

/-- A digit is not what the functions look for besides. -/
theorem hexChar_other (digit : Fin 16) : isSpace (hexChar digit) = false ∧
    hexChar digit ≠ ' ' ∧ hexChar digit ≠ '-' ∧ hexChar digit ≠ '+' ∧
    hexChar digit ≠ 'x' ∧ hexChar digit ≠ 'X' := by
  revert digit
  decide

/-- The end of a string, or a blank. -/
inductive Ends : CString → Prop
  | nil : Ends []
  | blank (p : CString) : Ends (' ' :: p)

/-- The value of digits behind a number. -/
def ofDigits (digits : List (Fin 16)) (value : ℕ) : ℕ :=
  digits.foldl (fun value digit => 16 * value + digit.val) value

theorem hexLoop_hexText {rest : CString} (h : Ends rest) (digits : List (Fin 16)) (value : ℕ) :
    hexLoop (hexText digits ++ rest) value = ofDigits digits value := by
  induction digits generalizing value with
  | nil => cases h <;> rfl
  | cons digit digits ih =>
      simp only [hexText, List.map_cons, List.cons_append, hexLoop, hexValue_hexChar]
      exact ih _

theorem skipSign_of_ne {c : Char} {p : CString} (hminus : c ≠ '-') (hplus : c ≠ '+') :
    skipSign (c :: p) = (false, c :: p) := by
  rw [skipSign] <;> simp [hminus, hplus]

theorem skipHexMark_of_ne {c c' : Char} {p : CString} (hx : c' ≠ 'x') (hX : c' ≠ 'X') :
    skipHexMark (c :: c' :: p) = c :: c' :: p := by
  rw [skipHexMark] <;> simp [hx, hX]

theorem skipHexMark_singleton (c : Char) : skipHexMark [c] = [c] := by
  rw [skipHexMark] <;> simp

theorem skipHexMark_hexText {rest : CString} (h : Ends rest) (digits : List (Fin 16)) :
    skipHexMark (hexText digits ++ rest) = hexText digits ++ rest := by
  cases digits with
  | nil =>
      cases h with
      | nil => rfl
      | blank p => cases p <;> rfl
  | cons digit digits =>
      cases digits with
      | nil =>
          cases h with
          | nil => exact skipHexMark_singleton _
          | blank p => exact skipHexMark_of_ne (by decide) (by decide)
      | cons digit' digits =>
          obtain ⟨-, -, -, -, hx, hX⟩ := hexChar_other digit'
          exact skipHexMark_of_ne hx hX

/-- A number is read up to its end. -/
theorem strtoul_hexText {rest : CString} (h : Ends rest) {digits : List (Fin 16)}
    (hne : digits ≠ []) (hlt : ofDigits digits 0 ≤ 0xFFFFFFFF) :
    strtoul (hexText digits ++ rest) = .ofNat (ofDigits digits 0) := by
  obtain ⟨digit, digits', rfl⟩ := List.exists_cons_of_ne_nil hne
  obtain ⟨hspace, -, hminus, hplus, -, -⟩ := hexChar_other digit
  have hdrop : (hexText (digit :: digits') ++ rest).dropWhile isSpace =
      hexText (digit :: digits') ++ rest := by
    simp [hexText, hspace]
  have hsign : skipSign (hexText (digit :: digits') ++ rest) =
      (false, hexText (digit :: digits') ++ rest) := skipSign_of_ne hminus hplus
  rw [strtoul, hdrop, hsign]
  simp only [skipHexMark_hexText h, hexLoop_hexText h, Nat.not_lt.mpr hlt, if_false,
    Bool.false_eq_true]

theorem ofDigits_digits16 (n : UInt16) : ofDigits (digits16 n) 0 = n.toNat := by
  have hn := n.toNat_lt
  simp only [ofDigits, digits16, List.foldl_cons, List.foldl_nil, Fin.ofNat]
  omega

theorem ofDigits_digits8 (b : UInt8) : ofDigits (digits8 b) 0 = b.toNat := by
  have hb := b.toNat_lt
  simp only [ofDigits, digits8, List.foldl_cons, List.foldl_nil, Fin.ofNat]
  omega

theorem strtoul_digits16 {rest : CString} (h : Ends rest) (n : UInt16) :
    (strtoul (hexText (digits16 n) ++ rest)).toUInt16 = n := by
  have hn := n.toNat_lt
  rw [strtoul_hexText h (by simp [digits16]) (by rw [ofDigits_digits16]; omega),
    ofDigits_digits16, ← UInt16.toNat_inj, UInt32.toNat_toUInt16, UInt32.toNat_ofNat_of_lt'
      (by simp only [UInt32.size]; omega), Nat.mod_eq_of_lt hn]

theorem strtoul_digits8 (b : UInt8) : (strtoul (hexText (digits8 b))).toUInt8 = b := by
  have hb := b.toNat_lt
  have h : strtoul (hexText (digits8 b) ++ []) = .ofNat (ofDigits (digits8 b) 0) :=
    strtoul_hexText .nil (by simp [digits8]) (by rw [ofDigits_digits8]; omega)
  rw [List.append_nil] at h
  rw [h, ofDigits_digits8, ← UInt8.toNat_inj, UInt32.toNat_toUInt8, UInt32.toNat_ofNat_of_lt'
    (by simp only [UInt32.size]; omega), Nat.mod_eq_of_lt hb]

/-! ## Tokens -/

theorem ne_blank_of_mem {digits : List (Fin 16)} {c : Char} (h : c ∈ hexText digits) :
    c ≠ ' ' := by
  rw [hexText, List.mem_map] at h
  obtain ⟨digit, -, rfl⟩ := h
  exact (hexChar_other digit).2.1

theorem ends_dataText (data : List UInt8) : Ends (dataText data) := by
  cases data with
  | nil => exact .nil
  | cons b data => exact .blank _

theorem dropWhile_hexText (digits : List (Fin 16)) (rest : CString) :
    (hexText digits ++ rest).dropWhile (· ≠ ' ') = rest.dropWhile (· ≠ ' ') := by
  apply List.dropWhile_append_of_pos
  intro c hc
  simpa using ne_blank_of_mem hc

theorem takeWhile_hexText {rest : CString} (h : Ends rest) (digits : List (Fin 16)) :
    (hexText digits ++ rest).takeWhile (· ≠ ' ') = hexText digits := by
  rw [List.takeWhile_append_of_pos]
  · cases h <;> simp
  · intro c hc
    simpa using ne_blank_of_mem hc

theorem dropWhile_dataText (data : List UInt8) :
    (dataText data).dropWhile (· ≠ ' ') = dataText data := by
  cases data with
  | nil => rfl
  | cons b data => simp [dataText]

/-- The bytes of a frame without the first blank. -/
def tokensText : List UInt8 → CString
  | [] => []
  | b :: data => hexText (digits8 b) ++ dataText data

theorem strtok_of_ne {c : Char} {p : CString} (h : c ≠ ' ') :
    strtok (c :: p) =
      some ((c :: p).takeWhile (· ≠ ' '), ((c :: p).dropWhile (· ≠ ' ')).drop 1) := by
  rw [strtok, List.dropWhile_cons_of_neg (by simpa using h)]

/-- The bytes are the tokens. -/
theorem strtok_tokensText (b : UInt8) (data : List UInt8) :
    strtok (tokensText (b :: data)) = some (hexText (digits8 b), tokensText data) := by
  have hfirst : strtok (tokensText (b :: data)) = _ :=
    strtok_of_ne (hexChar_other (.ofNat 16 (b.toNat / 16))).2.1
  have hdrop : (tokensText (b :: data)).dropWhile (· ≠ ' ') = dataText data :=
    (dropWhile_hexText (digits8 b) _).trans (dropWhile_dataText data)
  have hnext : (dataText data).drop 1 = tokensText data := by
    cases data with
    | nil => rfl
    | cons b' data => rfl
  rw [hfirst, Option.some.injEq, Prod.mk.injEq]
  constructor
  · exact takeWhile_hexText (ends_dataText data) (digits8 b)
  · exact (congrArg (List.drop 1) hdrop).trans hnext

theorem readData_tokensText (data : List UInt8) (space : ℕ) :
    readData space (tokensText data) = data.take space := by
  induction data generalizing space with
  | nil => cases space <;> rfl
  | cons b data ih =>
      cases space with
      | zero => rfl
      | succ space =>
          rw [readData, strtok_tokensText]
          simp only [strtoul_digits8, ih, List.take_succ_cons]

/-! ## What was written is read back -/

theorem strchr_hexText (digits : List (Fin 16)) {rest : CString} :
    strchr (hexText digits ++ rest) ' ' = strchr rest ' ' := by
  rw [strchr, strchr, dropWhile_hexText]

/-- The bytes are found behind the number. -/
theorem behindBlank_hexText (digits : List (Fin 16)) (data : List UInt8) :
    ((behindBlank (hexText digits ++ dataText data)).elim [] (readData 8)) = data.take 8 := by
  rw [behindBlank, strchr_hexText]
  cases data with
  | nil => rfl
  | cons b data =>
      rw [← readData_tokensText (b :: data) 8]
      rfl

theorem behindBlank_letter (c : Char) (hc : c ≠ ' ') (n : UInt16) (rest : CString) :
    behindBlank ('-' :: c :: ' ' :: (hexText (digits16 n) ++ rest)) =
      some (hexText (digits16 n) ++ rest) := by
  simp [behindBlank, strchr, hc, hexText, digits16]

/-- A frame that can be asked for holds its bytes, and zeros. -/
theorem payload_take {m : Message} (h : Sendable m) :
    payload (m.data.toList.take m.len.toNat) = m.data := by
  apply Vector.ext
  intro i hi
  rw [payload, Vector.getElem_ofFn]
  by_cases hlen : i < m.len.toNat
  · have hget : (m.data.toList.take m.len.toNat)[i]? = some m.data[i] := by
      rw [List.getElem?_take_of_lt hlen]
      simp [hi]
    simp [List.getD, hget]
  · have hget : (m.data.toList.take m.len.toNat)[i]? = none := by
      rw [List.getElem?_eq_none]
      exact Nat.le_trans (List.length_take_le _ _) (Nat.le_of_not_lt hlen)
    rw [List.getD, hget]
    exact (h.zero ⟨i, hi⟩ (Nat.le_of_not_lt hlen)).symm

theorem length_take_data {m : Message} (h : Sendable m) :
    (m.data.toList.take m.len.toNat).length = m.len.toNat := by
  rw [List.length_take, Vector.length_toList, Nat.min_eq_left h.len]

theorem canOpenCli_written {r : Request} (h : r.WellFormed) :
    canOpenCli (some (written r)) = r := by
  have hid (c : Char) (hc : c ≠ ' ') (id : UInt16) :
      behindBlank ('-' :: c :: ' ' :: hexText (digits16 id)) = some (hexText (digits16 id)) := by
    have hrest := behindBlank_letter c hc id []
    rwa [List.append_nil] at hrest
  have hvalue (id : UInt16) : (strtoul (hexText (digits16 id))).toUInt16 = id := by
    have hrest := strtoul_digits16 .nil id
    rwa [List.append_nil] at hrest
  cases r with
  | filter command =>
      cases command with
      | add id =>
          simp only [written, canOpenCli, hid 'f' (by decide), Option.elim_some, hvalue]
      | remove id =>
          simp only [written, canOpenCli, hid 'e' (by decide), Option.elim_some, hvalue]
      | clear | list => rfl
  | send m =>
      have hdata := behindBlank_hexText (digits16 m.cobId) (m.data.toList.take m.len.toNat)
      have htake : (m.data.toList.take m.len.toNat).take 8 = m.data.toList.take m.len.toNat := by
        rw [List.take_take, Nat.min_eq_right h.len]
      simp only [written, canOpenCli, behindBlank_letter 's' (by decide), Option.elim_some,
        sendRequest, Option.bind_some, strtoul_digits16 (ends_dataText _), hdata, htake,
        payload_take h, length_take_data h, UInt8.ofNat_toNat]
      rw [← h.rtr]
  | manual | invalid => rfl

/-! ## Whatever is read can be asked for -/

theorem length_readData_le (space : ℕ) (str : CString) : (readData space str).length ≤ space := by
  induction space generalizing str with
  | zero => exact Nat.le_refl 0
  | succ space ih =>
      rw [readData]
      cases strtok str with
      | none => exact Nat.zero_le _
      | some next => exact Nat.succ_le_succ (ih next.2)

theorem sendable_of_length {data : List UInt8} (h : data.length ≤ 8) (cobId : UInt16) :
    Sendable ⟨cobId, false, .ofNat data.length, payload data⟩ := by
  have hlen : (UInt8.ofNat data.length).toNat = data.length :=
    UInt8.toNat_ofNat_of_lt' (by simp only [UInt8.size]; omega)
  refine ⟨rfl, by rw [hlen]; exact h, ?_⟩
  intro i hi
  rw [hlen] at hi
  simp [payload, List.getElem?_eq_none hi]

theorem wellFormed_sendRequest (value : UInt32) (argument : Option CString) :
    (sendRequest value argument).WellFormed := by
  apply sendable_of_length
  cases argument.bind behindBlank with
  | none => exact Nat.zero_le _
  | some str => exact length_readData_le 8 str

theorem wellFormed_canOpenCli (args : Option CString) : (canOpenCli args).WellFormed := by
  cases args with
  | none => trivial
  | some args =>
      simp only [canOpenCli]
      split
      case h_5 => exact wellFormed_sendRequest _ _
      all_goals trivial

/-- **Command lines**: every request is read back from the line written for it, a frame with
its identifier and up to 8 bytes; and no line makes a frame with more, or with something
behind its length. -/
theorem can_open_cli_round_trip :
    (∀ r : Request, r.WellFormed → canOpenCli (some (written r)) = r) ∧
      ∀ args, (canOpenCli args).WellFormed :=
  ⟨fun _ h => canOpenCli_written h, wellFormed_canOpenCli⟩

/-- A frame of three bytes. -/
theorem three_bytes_round_trip :
    written (.send ⟨0x1A3, false, 3, #v[0x0F, 0xB0, 0xFF, 0, 0, 0, 0, 0]⟩) =
        "-s 01a3 0f b0 ff".toList ∧
      canOpenCli (some (written (.send ⟨0x1A3, false, 3, #v[0x0F, 0xB0, 0xFF, 0, 0, 0, 0, 0]⟩))) =
        .send ⟨0x1A3, false, 3, #v[0x0F, 0xB0, 0xFF, 0, 0, 0, 0, 0]⟩ :=
  ⟨by decide, can_open_cli_round_trip.1 _ ⟨rfl, by decide, by decide⟩⟩

/-- A second blank before the identifier, which is then the first byte as well. -/
example : canOpenCli (some "-s  123 AA".toList) =
    .send ⟨0x123, false, 2, #v[0x23, 0xAA, 0, 0, 0, 0, 0, 0]⟩ := by decide

end RhsCore.CanOpen
