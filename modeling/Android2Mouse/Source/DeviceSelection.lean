import Android2Mouse.Source.BecomeAMouse
import Android2Mouse.Source.DaemonMain

/-!
# Choosing a device (`DeviceSelection.java`, `SelectBcastType.java`)

The list of bonded devices on the screen, the one that is tapped, and the daemon that
`HidpBcaster.StartSession` starts for it. An address of a device is shown as `ba2str` writes
it. There is an adapter; logging and what is not about the addresses is left out.
-/
namespace Android2Mouse.Source.DeviceSelection
open Library.Strtol Sdp Bluetooth DaemonMain

structure BluetoothDevice where
  name : List UInt16
  bdaddr : BdAddr
  deriving DecidableEq

def BluetoothDevice.getAddress (device : BluetoothDevice) : List UInt8 := ba2str device.bdaddr

/-- The activity: the rows on the screen, and `addrs`. -/
structure Activity where
  rows : List (List UInt16)
  addrs : List (List UInt8)
  deriving DecidableEq

def initial : Activity := ⟨[], []⟩

/-- `fillData`, with what `getBondedDevices` returns; it is called by `onCreate` and by the
menu item that updates the list. -/
def fillData (activity : Activity) (pairedDevices : List BluetoothDevice) : Activity :=
  ⟨pairedDevices.map BluetoothDevice.name,
    activity.addrs ++ pairedDevices.map BluetoothDevice.getAddress⟩

/-- `addrs.get(position)`, none where it throws. -/
def onListItemClick (activity : Activity) (position : ℕ) : Option (List UInt8) :=
  activity.addrs[position]?

/-- The command of `StartSession`, which `SelectBcastType` calls with the address. -/
def startSessionCommand (address : List UInt8) : List UInt8 :=
  literal "su -c /data/hidp_clientd --logfile=".toList ++
    (literal "/data/hidp_clientd.log".toList ++ (literal " multi ".toList ++ address))

/-- The arguments of the daemon: the words of the command after `su -c` and its own name. -/
def daemonArgs (address : List UInt8) : List (List UInt8) :=
  (BecomeAMouse.tokens (startSessionCommand address)).drop 3

end Android2Mouse.Source.DeviceSelection
