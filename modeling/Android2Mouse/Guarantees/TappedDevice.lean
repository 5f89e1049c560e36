import Android2Mouse.Guarantees.RecordHandle
import Android2Mouse.Guarantees.StartUp
import Android2Mouse.Source.DeviceSelection

/-!
# From a tap to the connection

`fillData` makes the rows anew and adds to the addresses, so that after the list has been
updated a tap is on a row of the last list and takes an address of the first ones. The daemon
that is started connects to that address (`tapped_connects`); it is the one of the device on
the screen exactly when the updates have not changed the list.
-/
namespace Android2Mouse.Guarantees.TappedDevice
open Library Library.Strtol
open Source.BecomeAMouse Source.Bluetooth Source.DaemonMain Source.DeviceSelection Source.Sdp
open AddressText RecordHandle StartUp

/-! ## The command line of the daemon -/

theorem upperDigit_plain (d : ℕ) (h : d < 16) : isDelimiter (upperDigit d) = false := by
  interval_cases d <;> decide

theorem hexBytes_plain (bs : List UInt8) : ∀ b ∈ hexBytes bs, isDelimiter b = false := by
  have hbyte (b : UInt8) : ∀ c ∈ hexByte b, isDelimiter c = false := by
    have hb := b.toNat_lt
    rw [hexByte, List.forall_mem_cons, List.forall_mem_singleton]
    exact ⟨upperDigit_plain _ (by omega), upperDigit_plain _ (by omega)⟩
  induction bs with
  | nil => exact fun b hb => absurd hb List.not_mem_nil
  | cons b bs ih =>
    cases bs with
    | nil =>
      have hone : hexBytes [b] = hexByte b := List.append_nil _
      rw [hone]
      exact hbyte b
    | cons b' bs =>
      rw [hexBytes_cons, List.forall_mem_append, List.forall_mem_cons]
      exact ⟨hbyte b, by decide, ih⟩

/-- The option and the connection type that come before the address. -/
def sessionArgs : List (List UInt8) :=
  [literal "--logfile=/data/hidp_clientd.log".toList, literal "multi".toList]

theorem daemonArgs_address (ba : BdAddr) :
    daemonArgs (ba2str ba) = sessionArgs ++ [ba2str ba] := by
  have hne : ba2str ba ≠ [] := List.ne_nil_of_length_pos (by rw [length_ba2str]; decide)
  have hcommand : startSessionCommand (ba2str ba) =
      literal "su".toList ++ 32 :: (literal "-c".toList ++ 32 ::
        (literal "/data/hidp_clientd".toList ++ 32 ::
          (literal "--logfile=/data/hidp_clientd.log".toList ++ 32 ::
            (literal "multi".toList ++ 32 :: ba2str ba)))) := rfl
  rw [daemonArgs, hcommand, tokens_known _ _ (by decide), tokens_known _ _ (by decide),
    tokens_known _ _ (by decide), tokens_known _ _ (by decide), tokens_known _ _ (by decide),
    tokens_last _ hne (hexBytes_plain _)]
  rfl

/-- The options end at the connection type. -/
theorem of_sessionArgs (addr : List UInt8) :
    CmdLine.of (sessionArgs ++ [addr]) =
      ⟨[.logfile (literal "/data/hidp_clientd.log".toList)], [literal "multi".toList, addr]⟩ := rfl

theorem ba2str_inj {ba ba' : BdAddr} (h : ba2str ba = ba2str ba') : ba = ba' := by
  have hread := (str2ba_iff _ ba).mpr (toupper_ba2str ba)
  rw [h, (str2ba_iff _ ba').mpr (toupper_ba2str ba')] at hread
  exact (Prod.mk.inj hread).2.symm

theorem asks_session (ba ba' : BdAddr) (info : ConnInfo) :
    Asks (.of (daemonArgs (ba2str ba))) ba' info ↔ ba' = ba ∧ info = .multiBin := by
  have hmulti : IsConnType (literal "multi".toList) info ↔ info = .multiBin := by
    rw [IsConnType, or_iff_right fun h => absurd h.1 (by decide), and_iff_right rfl]
  rw [daemonArgs_address, of_sessionArgs, Asks]
  constructor
  · rintro ⟨-, type, addr, rest, hargv, htype, haddr⟩
    cases hargv
    rw [toupper_ba2str] at haddr
    exact ⟨ba2str_inj haddr.symm, hmulti.mp htype⟩
  · rintro ⟨rfl, hinfo⟩
    exact ⟨fun h => Opt.noConfusion (List.mem_singleton.mp h), _, _, [], rfl, hmulti.mpr hinfo,
      toupper_ba2str _⟩

/-! ## Taps -/

/-- The activity after it has been filled so often. -/
def filled (fills : List (List BluetoothDevice)) : Activity := fills.foldl fillData initial

theorem filled_addrs (fills : List (List BluetoothDevice)) :
    (filled fills).addrs = fills.flatten.map BluetoothDevice.getAddress := by
  have hfrom (activity : Activity) : (fills.foldl fillData activity).addrs =
      activity.addrs ++ fills.flatten.map BluetoothDevice.getAddress := by
    induction fills generalizing activity with
    | nil => exact (List.append_nil _).symm
    | cons devices fills ih =>
      rw [List.foldl_cons, ih, fillData, List.flatten_cons, List.map_append, List.append_assoc]
  exact hfrom initial

theorem tapped (fills : List (List BluetoothDevice)) (position : ℕ) :
    onListItemClick (filled fills) position =
      fills.flatten[position]?.map BluetoothDevice.getAddress := by
  rw [onListItemClick, filled_addrs, List.getElem?_map]

theorem getAddress_inj {device device' : BluetoothDevice} :
    device.getAddress = device'.getAddress ↔ device.bdaddr = device'.bdaddr :=
  ⟨ba2str_inj, congrArg ba2str⟩

/-- However often the list has been filled, with whatever devices: a tap on a row starts a daemon
that reaches its loop, if its system calls succeed, connected to the device that is at this
position of all the lists together. That is the device of the row, for every row, exactly when
the addresses of the last list are those that all the lists together begin with. -/
theorem tapped_connects (fills : List (List BluetoothDevice)) (last : List BluetoothDevice) :
    let activity := filled (fills ++ [last])
    let all := fills.flatten ++ last
    activity.rows = last.map BluetoothDevice.name ∧
      (∀ position < last.length, ∃ device, all[position]? = some device ∧
        onListItemClick activity position = some device.getAddress ∧
        ∀ (eexist : Bool) (cnt int : Descriptor) (o : Outcomes) (ba : BdAddr) (info : ConnInfo),
          let daemon := main (.of (daemonArgs device.getAddress)) eexist cnt int none
          daemon.result o = .polling ba info ↔
            (ba = device.bdaddr ∧ info = .multiBin) ∧ ∀ t ∈ daemon.trace o, Passed eexist t) ∧
      ((∀ position < last.length, onListItemClick activity position =
          last[position]?.map BluetoothDevice.getAddress) ↔
        last.map BluetoothDevice.bdaddr <+: all.map BluetoothDevice.bdaddr) := by
  intro activity all
  have hall : (fills ++ [last]).flatten = all := by
    rw [List.flatten_append, List.flatten_singleton]
  have hlen : last.length ≤ all.length := by
    rw [List.length_append]
    omega
  refine ⟨?_, fun position hposition => ?_, ?_⟩
  · rw [show activity = fillData _ last from List.foldl_concat ..]
    rfl
  · have hdevice := List.getElem?_eq_getElem (Nat.lt_of_lt_of_le hposition hlen)
    refine ⟨_, hdevice, ?_, fun eexist cnt int o ba info => ?_⟩
    · rw [tapped, hall, hdevice]
      rfl
    · rw [← asks_session]
      exact main_polls _ eexist cnt int ba info o
  · have hrow (position : ℕ) (hposition : position < last.length) :
        onListItemClick activity position = last[position]?.map BluetoothDevice.getAddress ↔
          (all.map BluetoothDevice.bdaddr)[position]? = some last[position].bdaddr := by
      have hdevice := List.getElem?_eq_getElem (Nat.lt_of_lt_of_le hposition hlen)
      rw [tapped, hall, hdevice, List.getElem?_eq_getElem hposition, List.getElem?_map, hdevice,
        Option.map_some, Option.map_some, Option.map_some, Option.some_inj, Option.some_inj]
      exact getAddress_inj
    rw [List.prefix_iff_getElem?]
    constructor
    · intro hrows position hposition
      rw [List.getElem_map]
      exact (hrow position _).mp (hrows position (List.length_map _ ▸ hposition))
    · intro hfirst position hposition
      have hdevice := hfirst position ((List.length_map _).symm ▸ hposition)
      rw [List.getElem_map] at hdevice
      exact (hrow position hposition).mpr hdevice

end Android2Mouse.Guarantees.TappedDevice
