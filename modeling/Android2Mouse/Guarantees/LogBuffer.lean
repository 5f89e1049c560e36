import Android2Mouse.Source.DaemonLog

/-!
# Which messages fit the buffer

The buffer of a started log has 64 bytes. The text of a message is as long as the name of
the function, the ordinary characters of the format and the widths of its arguments
(`length_info`, `length_error`), and `text_fits_iff` says for each message for which
arguments that is at most 63. `log_fits_iff` is the same of whole runs: a run writes
past the buffer exactly when one of its messages does.
-/
namespace Android2Mouse.Guarantees.LogBuffer
open Library Library.Strtol Library.Printf Source.ComboConn Source.AsciiMap
  Source.Logging Source.DaemonLog

/-! ## Widths -/

/-- The width of an `int` in decimal. -/
def intWidth (v : Int32) : ℕ := (signedText 1 v.toInt).length

/-- The width of what `error` adds between the name of the function and its own text,
without the colon, the parentheses and the second colon. -/
def errnoWidth (strerror : Int32 → List UInt8) (errno : Int32) : ℕ :=
  (strerror errno).length + (signedText 2 errno.toInt).length

theorem toInt_of_lt (v : UInt32) (h : v.toNat < 2 ^ 31) : v.toInt32.toInt = v.toNat := by
  have hword : v.toInt32.toInt = (v.toNat : ℤ).bmod (2 ^ 32) := BitVec.toInt_eq_toNat_bmod _
  rw [hword]
  exact Int.bmod_eq_of_le (by omega) (by omega)

/-- A word below a power of ten, as an `int` with no sign. -/
theorem wordWidth_le (v : UInt32) {k : ℕ} (hk : 0 < k) (hmax : k ≤ 9) (h : v.toNat < 10 ^ k) :
    intWidth v.toInt32 ≤ k := by
  have hpow : 10 ^ k ≤ 10 ^ 9 := Nat.pow_le_pow_right (by decide) hmax
  have hdigits := (length_numeral_le_iff (show 1 < 10 by decide) hk v.toNat).mpr h
  rw [intWidth, toInt_of_lt v (by omega), length_signedText, if_neg (by omega), Int.natAbs_natCast]
  omega

theorem byteWidth_le (b : UInt8) : intWidth b.toUInt32.toInt32 ≤ 3 := by
  have hlt := b.toNat_lt
  refine wordWidth_le _ (by decide) (by decide) ?_
  rw [UInt8.toNat_toUInt32]
  omega

theorem word16Width_le (v : UInt16) : intWidth v.toUInt32.toInt32 ≤ 5 := by
  have hlt := v.toNat_lt
  refine wordWidth_le _ (by decide) (by decide) ?_
  rw [UInt16.toNat_toUInt32]
  omega

theorem int8Width_le (v : Int8) : intWidth v.toInt32 ≤ 4 := by
  have hlow := v.le_toInt
  have hhigh := v.toInt_lt
  rw [intWidth, Int8.toInt_toInt32]
  exact length_signedText_le (show 0 < 3 by decide) (by decide) (by omega)

theorem intWidth_le (v : Int32) : intWidth v ≤ 11 := length_signed_word (by decide) v.toUInt32

theorem hexWidth_le (b : UInt8) : (numeral 16 b.toNat).length ≤ 2 :=
  (length_numeral_le_iff (by decide) (by decide) _).mpr b.toNat_lt

/-- Each byte has a hexadecimal digit, and each of 16 or more has two. -/
theorem widths_hex (bs : List UInt8) :
    widths (List.replicate bs.length (.unsigned 16)) (bs.map .byte) =
      bs.length + bs.countP (16 ≤ ·) := by
  induction bs with
  | nil => rfl
  | cons b bs ih =>
    have hbyte : ((Conversion.unsigned 16).text (.byte b)).length = if 16 ≤ b then 2 else 1 :=
      length_hex_byte b
    rw [List.length_cons, List.replicate_succ, List.map_cons, widths, ih, hbyte, List.countP_cons]
    simp only [decide_eq_true_eq]
    split <;> omega

/-! ## The macros -/

theorem length_info {func f : String} {cs : List Conversion} (args : List Arg)
    (hconvs : conversions (pieces f.toList) = cs) :
    (info func f args).text.length =
      func.toList.length + 1 + plain (pieces f.toList) + widths cs args := by
  have hpieces : pieces ("%s:".toList ++ f.toList) =
      .convert .string :: .byte 58 :: pieces f.toList := rfl
  have htext : (info func f args).text =
      literal func.toList ++ 58 :: format (pieces f.toList) args := by
    rw [Call.text, info, hpieces]
    rfl
  rw [htext, List.length_append, List.length_cons, length_format, hconvs, literal, List.length_map]
  omega

/-- What fits after the name of the function, its colon and the ordinary characters. -/
theorem info_fits_iff {func f : String} {room : ℕ} (cs : List Conversion) (args : List Arg)
    (hroom : func.toList.length + 1 + plain (pieces f.toList) + room = 63)
    (hconvs : conversions (pieces f.toList) = cs) :
    (info func f args).text.length + 1 ≤ 64 ↔ widths cs args ≤ room := by
  rw [length_info args hconvs]
  omega

theorem dbg_fits_iff {func f : String} {room : ℕ} (cs : List Conversion) (args : List Arg)
    (hroom : func.toList.length + 1 + plain (pieces f.toList) + room = 63)
    (hconvs : conversions (pieces f.toList) = cs) :
    (dbg func f args).text.length + 1 ≤ 64 ↔ widths cs args ≤ room :=
  info_fits_iff cs args hroom hconvs

/-- An error has two colons and two parentheses. -/
theorem length_error (strerror : Int32 → List UInt8) (errno : Int32) {func f : String}
    {cs : List Conversion} (args : List Arg) (hconvs : conversions (pieces f.toList) = cs) :
    (error strerror errno func f args).text.length =
      func.toList.length + 4 + plain (pieces f.toList) +
        (errnoWidth strerror errno + widths cs args) := by
  have hpieces : pieces ("%s:%s(%.2d):".toList ++ f.toList) = .convert .string :: .byte 58 ::
      .convert .string :: .byte 40 :: .convert (.signed 2) :: .byte 41 :: .byte 58 ::
        pieces f.toList := rfl
  have htext : (error strerror errno func f args).text =
      literal func.toList ++ 58 :: (strerror errno ++ 40 :: (signedText 2 errno.toInt ++
        41 :: 58 :: format (pieces f.toList) args)) := by
    rw [Call.text, error, hpieces]
    rfl
  simp only [htext, List.length_append, List.length_cons, length_format, hconvs, literal,
    List.length_map, errnoWidth]
  omega

theorem error_fits_iff (strerror : Int32 → List UInt8) (errno : Int32) {func f : String}
    {room : ℕ} (cs : List Conversion) (args : List Arg)
    (hroom : func.toList.length + 4 + plain (pieces f.toList) + room = 63)
    (hconvs : conversions (pieces f.toList) = cs) :
    (error strerror errno func f args).text.length + 1 ≤ 64 ↔
      errnoWidth strerror errno + widths cs args ≤ room := by
  rw [length_error strerror errno args hconvs]
  omega

/-! ## Every message -/

/-- How many of the six keycodes may need two digits. -/
def room : KbdSite → ℕ
  | .press => 3
  | .release => 1
  | .multiBin => 0

/-- Which arguments a message may have. -/
def Fits (strerror : Int32 → List UInt8) : Message → Prop
  | .failed e _ errno =>
    e.func.toList.length + e.f.toList.length + errnoWidth strerror errno ≤ 59
  | .keycodes site kbd => kbd.keycodes.toList.countP (16 ≤ ·) ≤ room site
  | .gamepad g => intWidth g.x.toInt32 + (intWidth g.y.toInt32 + (intWidth g.z.toInt32 +
      (intWidth g.rx.toInt32 + (intWidth g.ry.toInt32 + (intWidth g.rz.toInt32 +
        (numeral 16 g.buttons.toNat).length))))) ≤ 18
  | .mallocFailed size errno => errnoWidth strerror errno + intWidth size.toInt32 ≤ 30
  | .noSockopts errno =>
    errnoWidth strerror errno + ((strerror errno).length + intWidth errno) ≤ 9
  | .packet sk size cache =>
    intWidth sk + ((signedText 2 size.toInt).length + intWidth cache.toInt32) ≤ 27
  | .errnoText errno => errnoWidth strerror errno + intWidth errno ≤ 43
  | .niceMouse x y b => intWidth x + (intWidth y + (numeral 16 b.toUInt32.toNat).length) ≤ 21
  | .noMethod name => name.length ≤ 23
  | .address addr => addr.length ≤ 48
  | .badAddress addr errno => errnoWidth strerror errno + addr.length ≤ 22
  | .badType type errno => errnoWidth strerror errno + type.length ≤ 18
  | .commandLine fifo type addr => fifo.length + (type.length + addr.length) ≤ 32
  | .mkfifo errno => errnoWidth strerror errno ≤ 21
  | .sockets cntSock intSock srcFd => intWidth cntSock + (intWidth intSock + intWidth srcFd) ≤ 28
  | .fdFailed _ errno => errnoWidth strerror errno ≤ 34
  | _ => True

theorem notes_fit : ∀ c ∈ notes, c.text.length + 1 ≤ 64 := by decide +kernel

theorem failures_plain : ∀ e ∈ failures, plain (pieces e.f.toList) = e.f.toList.length ∧
    conversions (pieces e.f.toList) = [] := by
  decide +kernel

theorem failed_fits_iff (strerror : Int32 → List UInt8) {e : Failure} (he : e ∈ failures)
    (errno : Int32) : (error strerror errno e.func e.f []).text.length + 1 ≤ 64 ↔
      e.func.toList.length + e.f.toList.length + errnoWidth strerror errno ≤ 59 := by
  obtain ⟨hplain, hconvs⟩ := failures_plain e he
  have hwidths : widths [] [] = 0 := rfl
  rw [length_error strerror errno [] hconvs, hplain, hwidths]
  omega

theorem keycodes_conversions :
    conversions (pieces keycodesText.toList) = List.replicate 6 (.unsigned 16) := by
  decide

theorem keycodes_fits_iff (site : KbdSite) (kbd : KeyboardReport) :
    (dbg site.func keycodesText (kbd.keycodes.toList.map .byte)).text.length + 1 ≤ 64 ↔
      kbd.keycodes.toList.countP (16 ≤ ·) ≤ room site := by
  have hroom : site.func.toList.length + 1 + plain (pieces keycodesText.toList) +
      (6 + room site) = 63 := by
    cases site <;> decide
  have hlen : kbd.keycodes.toList.length = 6 := Vector.length_toList
  have hwidths := widths_hex kbd.keycodes.toList
  rw [hlen] at hwidths
  rw [dbg_fits_iff _ _ hroom keycodes_conversions, hwidths]
  omega

/-! ## Messages that always fit -/

theorem keyboard_fits (strerror : Int32 → List UInt8) (site : KbdSite) (kbd : KeyboardReport) :
    ((Message.keyboard site kbd).call strerror).text.length + 1 ≤ 64 := by
  have hid := byteWidth_le kbd.reportId
  have hreserved := byteWidth_le kbd.reserved
  have hmodifier := byteWidth_le kbd.modifier
  cases site with
  | press =>
    have hwidths : intWidth kbd.reserved.toUInt32.toInt32 +
        intWidth kbd.modifier.toUInt32.toInt32 ≤ 24 := by omega
    exact (dbg_fits_iff [.signed 1, .signed 1] _ rfl rfl).mpr hwidths
  | release =>
    have hwidths : intWidth kbd.reportId.toUInt32.toInt32 +
        (intWidth kbd.reserved.toUInt32.toInt32 +
          intWidth kbd.modifier.toUInt32.toInt32) ≤ 21 := by omega
    exact (dbg_fits_iff [.signed 1, .signed 1, .signed 1] _ rfl rfl).mpr hwidths
  | multiBin =>
    have hwidths : intWidth kbd.reserved.toUInt32.toInt32 +
        intWidth kbd.modifier.toUInt32.toInt32 ≤ 21 := by omega
    exact (dbg_fits_iff [.signed 1, .signed 1] _ rfl rfl).mpr hwidths

theorem decoded_fits (strerror : Int32 → List UInt8) (keycode : UInt8) :
    ((Message.decoded keycode).call strerror).text.length + 1 ≤ 64 := by
  have hcode := hexWidth_le keycode
  have hkey := hexWidth_le (kbdAsciimap.getD keycode.toNat 0)
  have hwidths : 1 + ((numeral 16 keycode.toUInt32.toNat).length +
      (numeral 16 (kbdAsciimap.getD keycode.toNat 0).toUInt32.toNat).length) ≤ 32 := by
    rw [UInt8.toNat_toUInt32, UInt8.toNat_toUInt32]
    omega
  exact (info_fits_iff [.char, .unsigned 16, .unsigned 16] _ rfl rfl).mpr hwidths

theorem letter_fits (strerror : Int32 → List UInt8) (c : UInt8) (mods : Int32) (flags2 : UInt8) :
    ((Message.letter c mods flags2).call strerror).text.length + 1 ≤ 64 := by
  have hc := hexWidth_le c
  have hmods := intWidth_le mods
  have hraw := byteWidth_le (flags2 &&& charRaw)
  have hwidths : 1 + ((numeral 16 c.toUInt32.toNat).length +
      (intWidth mods + intWidth (flags2 &&& charRaw).toUInt32.toInt32)) ≤ 26 := by
    rw [UInt8.toNat_toUInt32]
    omega
  exact (dbg_fits_iff [.char, .unsigned 16, .signed 1, .signed 1] _ rfl rfl).mpr hwidths

theorem mouse_fits (strerror : Int32 → List UInt8) (report : MouseReport) :
    ((Message.mouse report).call strerror).text.length + 1 ≤ 64 := by
  have hx := int8Width_le report.x
  have hy := int8Width_le report.y
  have hbuttons := hexWidth_le report.buttons
  have hwheel := int8Width_le report.wheel
  have hwidths : intWidth report.x.toInt32 + (intWidth report.y.toInt32 +
      ((numeral 16 report.buttons.toUInt32.toNat).length +
        intWidth report.wheel.toInt32)) ≤ 18 := by
    rw [UInt8.toNat_toUInt32]
    omega
  exact (dbg_fits_iff [.signed 1, .signed 1, .unsigned 16, .signed 1] _ rfl rfl).mpr hwidths

theorem sockopts_fits (strerror : Int32 → List UInt8) (imtu omtu : UInt16) :
    ((Message.sockopts imtu omtu).call strerror).text.length + 1 ≤ 64 := by
  have himtu := word16Width_le imtu
  have homtu := word16Width_le omtu
  have hwidths : intWidth imtu.toUInt32.toInt32 + intWidth omtu.toUInt32.toInt32 ≤ 34 := by omega
  exact (info_fits_iff [.signed 1, .signed 1] _ rfl rfl).mpr hwidths

theorem closing_fits (strerror : Int32 → List UInt8) (intSock cntSock : Int32) :
    ((Message.closing intSock cntSock).call strerror).text.length + 1 ≤ 64 := by
  have hint := intWidth_le intSock
  have hcnt := intWidth_le cntSock
  have hwidths : intWidth intSock + intWidth cntSock ≤ 34 := by omega
  exact (dbg_fits_iff [.signed 1, .signed 1] _ rfl rfl).mpr hwidths

theorem receiving_fits (strerror : Int32 → List UInt8) (sk : Int32) :
    ((Message.receiving sk).call strerror).text.length + 1 ≤ 64 := by
  have hsk := intWidth_le sk
  have hwidths : intWidth sk + (1 + 1) ≤ 18 := by omega
  exact (info_fits_iff [.signed 1, .signed 1, .signed 1] _ rfl rfl).mpr hwidths

/-- A text with one `int` in it fits where there is room for eleven characters. -/
theorem int_fits {func f : String} (v : Int32)
    (hconvs : conversions (pieces f.toList) = [.signed 1])
    (hroom : func.toList.length + 1 + plain (pieces f.toList) + 11 ≤ 63) :
    (info func f [.int v]).text.length + 1 ≤ 64 := by
  have hv : widths [.signed 1] [.int v] ≤ 11 := intWidth_le v
  rw [length_info _ hconvs]
  omega

/-- A text with one byte in it, in hexadecimal, fits where there is room for two. -/
theorem hex_fits {func f : String} (b : UInt8)
    (hconvs : conversions (pieces f.toList) = [.unsigned 16])
    (hroom : func.toList.length + 1 + plain (pieces f.toList) + 2 ≤ 63) :
    (info func f [.byte b]).text.length + 1 ≤ 64 := by
  have hb : widths [.unsigned 16] [.byte b] ≤ 2 := hexWidth_le b
  rw [length_info _ hconvs]
  omega

theorem mkfifo_fits_iff (strerror : Int32 → List UInt8) (errno : Int32) :
    ((Message.mkfifo errno).call strerror).text.length + 1 ≤ 64 ↔
      errnoWidth strerror errno ≤ 21 := by
  have hfits : ((Message.mkfifo errno).call strerror).text.length + 1 ≤ 64 ↔
      errnoWidth strerror errno + 26 ≤ 47 :=
    error_fits_iff strerror errno [.string, .unsigned 8] _ rfl rfl
  rw [hfits]
  omega

theorem fdFailed_fits_iff (strerror : Int32 → List UInt8) (i : Fin 3) (errno : Int32) :
    ((Message.fdFailed i errno).call strerror).text.length + 1 ≤ 64 ↔
      errnoWidth strerror errno ≤ 34 := by
  have hdigit : widths [.signed 1] [.word (UInt32.ofNat i)] = 1 := by
    revert i
    decide
  have hfits : ((Message.fdFailed i errno).call strerror).text.length + 1 ≤ 64 ↔
      errnoWidth strerror errno + widths [.signed 1] [.word (UInt32.ofNat i)] ≤ 35 :=
    error_fits_iff strerror errno [.signed 1] _ rfl rfl
  rw [hfits, hdigit]
  omega

/-! ## Every message -/

/-- The text of a message with its NUL fits the 64 bytes if and only if the arguments of
the message are as `Fits` says. -/
theorem text_fits_iff (strerror : Int32 → List UInt8) (m : Message) :
    (m.call strerror).text.length + 1 ≤ 64 ↔ Fits strerror m := by
  cases m with
  | note c listed => exact iff_of_true (notes_fit c listed) trivial
  | failed e listed errno => exact failed_fits_iff strerror listed errno
  | keycodes site kbd => exact keycodes_fits_iff site kbd
  | gamepad g =>
    exact dbg_fits_iff [.signed 1, .signed 1, .signed 1, .signed 1, .signed 1, .signed 1,
      .unsigned 16] _ rfl rfl
  | mallocFailed size errno => exact error_fits_iff strerror errno [.signed 1] _ rfl rfl
  | noSockopts errno => exact error_fits_iff strerror errno [.string, .signed 1] _ rfl rfl
  | packet sk size cache => exact info_fits_iff [.signed 1, .signed 2, .signed 1] _ rfl rfl
  | errnoText errno => exact error_fits_iff strerror errno [.signed 1] _ rfl rfl
  | niceMouse x y b => exact dbg_fits_iff [.signed 1, .signed 1, .unsigned 16] _ rfl rfl
  | noMethod name => exact info_fits_iff [.string] _ rfl rfl
  | address addr => exact dbg_fits_iff [.string] _ rfl rfl
  | badAddress addr errno => exact error_fits_iff strerror errno [.string] _ rfl rfl
  | badType type errno => exact error_fits_iff strerror errno [.string] _ rfl rfl
  | commandLine fifo type addr => exact info_fits_iff [.string, .string, .string] _ rfl rfl
  | sockets cntSock intSock srcFd =>
    exact info_fits_iff [.signed 1, .signed 1, .signed 1] _ rfl rfl
  | mkfifo errno => exact mkfifo_fits_iff strerror errno
  | fdFailed i errno => exact fdFailed_fits_iff strerror i errno
  | keyboard site kbd => exact iff_of_true (keyboard_fits strerror site kbd) trivial
  | decoded keycode => exact iff_of_true (decoded_fits strerror keycode) trivial
  | reportId id => exact iff_of_true (int_fits _ rfl (by decide)) trivial
  | letter c mods flags2 => exact iff_of_true (letter_fits strerror c mods flags2) trivial
  | badFlag flags => exact iff_of_true (hex_fits flags rfl (by decide)) trivial
  | mouse report => exact iff_of_true (mouse_fits strerror report) trivial
  | reallocating size => exact iff_of_true (int_fits size.toInt32 rfl (by decide)) trivial
  | closing intSock cntSock => exact iff_of_true (closing_fits strerror intSock cntSock) trivial
  | sockopts imtu omtu => exact iff_of_true (sockopts_fits strerror imtu omtu) trivial
  | peeking sk => exact iff_of_true (int_fits sk rfl (by decide)) trivial
  | sent n => exact iff_of_true (int_fits n rfl (by decide)) trivial
  | receiving sk => exact iff_of_true (receiving_fits strerror sk) trivial
  | dropping hdr => exact iff_of_true (hex_fits hdr rfl (by decide)) trivial
  | gotPacket hdr => exact iff_of_true (hex_fits (hdr >>> 4) rfl (by decide)) trivial

/-! ## Runs -/

theorem log_fits {l : Log} (h : Started l) {strerror : Int32 → List UInt8} {m : Message}
    (hfits : Fits strerror m) : ∃ l', log strerror l m = .ok l' ∧ Started l' := by
  have hlen := (text_fits_iff strerror m).mpr hfits
  rw [← h.bufSize] at hlen
  exact ⟨_, if_pos hlen, pushString_started h _ _⟩

theorem log_overflows {l : Log} (h : Started l) {strerror : Int32 → List UInt8} {m : Message}
    (hfits : ¬ Fits strerror m) : log strerror l m = .error .range := by
  have hlen := mt (text_fits_iff strerror m).mp hfits
  rw [← h.bufSize] at hlen
  exact if_neg hlen

/-- One message after another. -/
def logs (strerror : Int32 → List UInt8) (l : Log) (messages : List Message) : Except Fault Log :=
  messages.foldlM (log strerror) l

theorem logs_ok_iff {l : Log} (h : Started l) (strerror : Int32 → List UInt8)
    (messages : List Message) :
    (∃ l', logs strerror l messages = .ok l') ↔ ∀ m ∈ messages, Fits strerror m := by
  induction messages generalizing l with
  | nil => exact iff_of_true ⟨l, rfl⟩ fun m hm => absurd hm List.not_mem_nil
  | cons m messages ih =>
    rw [List.forall_mem_cons, logs, List.foldlM_cons]
    by_cases hfits : Fits strerror m
    · obtain ⟨l', hlog, hstarted⟩ := log_fits h hfits
      rw [hlog, ok_bind]
      exact (ih hstarted).trans (and_iff_right hfits).symm
    · rw [log_overflows h hfits]
      refine iff_of_false ?_ fun hall => hfits hall.1
      rintro ⟨l', hl'⟩
      cases hl'

/-- In the buffer of a log that `start_log` opened, the text of a message with its NUL has
room if and only if its arguments are as `Fits` says, and a run writes nothing past the
buffer if and only if all of its messages are so. -/
theorem log_fits_iff (strerror : Int32 → List UInt8) (path : List UInt8) (fopen malloc : Bool)
    (l : Log) (hopen : startLog path fopen malloc = some l) :
    (∀ m : Message, (m.call strerror).text.length + 1 ≤ l.bufSize ↔ Fits strerror m) ∧
      ∀ messages : List Message,
        (∃ l', logs strerror l messages = .ok l') ↔ ∀ m ∈ messages, Fits strerror m := by
  have hstarted := (startLog_started hopen).1
  refine ⟨fun m => ?_, logs_ok_iff hstarted strerror⟩
  rw [hstarted.bufSize]
  exact text_fits_iff strerror m

/-- The log of the daemon. -/
theorem log_fits_daemon :
    let l : Log := ⟨58, 65536, ⟨[], 0⟩, literal "hidp_clientd.log".toList, 64, false, 0⟩
    (∀ m : Message, (m.call fun _ => []).text.length + 1 ≤ l.bufSize ↔ Fits (fun _ => []) m) ∧
      ∀ messages : List Message,
        (∃ l', logs (fun _ => []) l messages = .ok l') ↔ ∀ m ∈ messages, Fits (fun _ => []) m :=
  log_fits_iff (fun _ => []) (literal "hidp_clientd.log".toList) true true _ (by decide)

/-- A keyboard packet with one keycode of 16 is enough. -/
theorem keycode_overflows :
    ¬ ∀ (strerror : Int32 → List UInt8) (path : List UInt8) (fopen malloc : Bool) (l : Log),
      startLog path fopen malloc = some l →
        ∀ m : Message, (m.call strerror).text.length + 1 ≤ l.bufSize := by
  intro h
  let kbd : KeyboardReport := ⟨kbdRepId, 0, 0, #v[16, 0, 0, 0, 0, 0]⟩
  have hlen := h (fun _ => []) (literal "hidp_clientd.log".toList) true true
    ⟨58, 65536, ⟨[], 0⟩, literal "hidp_clientd.log".toList, 64, false, 0⟩ (by decide)
    (.keycodes .multiBin kbd)
  exact absurd ((keycodes_fits_iff .multiBin kbd).mp hlen) (by decide)

end Android2Mouse.Guarantees.LogBuffer
