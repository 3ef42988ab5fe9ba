/-
# The methods of the engine

The methods that are called on the engine, and their names on the wire.
-/

namespace StorageControl.Engine

/-- The methods that are called. -/
inductive Method where
  | getVersion
  | createSubsystem
  | deleteSubsystem
  | getSubsystems
  | getTargetStats
  | addHost
  | addListener
  | removeListener
  | addNamespace
  | removeNamespace
  | getVolumeStats
  | setLimits
  | createBlkController
  | createScsiController
  | deleteVhostController
  | getVhostControllers
  | addTarget
  | removeTarget
deriving DecidableEq, Repr

namespace Method

/-- The name of a method on the wire. -/
def name : Method → String
  | .getVersion => "spdk_get_version"
  | .createSubsystem => "nvmf_create_subsystem"
  | .deleteSubsystem => "nvmf_delete_subsystem"
  | .getSubsystems => "nvmf_get_subsystems"
  | .getTargetStats => "nvmf_get_stats"
  | .addHost => "nvmf_subsystem_add_host"
  | .addListener => "nvmf_subsystem_add_listener"
  | .removeListener => "nvmf_subsystem_remove_listener"
  | .addNamespace => "nvmf_subsystem_add_ns"
  | .removeNamespace => "nvmf_subsystem_remove_ns"
  | .getVolumeStats => "bdev_get_iostat"
  | .setLimits => "bdev_set_qos_limit"
  | .createBlkController => "vhost_create_blk_controller"
  | .createScsiController => "vhost_create_scsi_controller"
  | .deleteVhostController => "vhost_delete_controller"
  | .getVhostControllers => "vhost_get_controllers"
  | .addTarget => "vhost_scsi_controller_add_target"
  | .removeTarget => "vhost_scsi_controller_remove_target"

/-- Every method. -/
def all : List Method :=
  [.getVersion, .createSubsystem, .deleteSubsystem, .getSubsystems, .getTargetStats, .addHost,
   .addListener, .removeListener, .addNamespace, .removeNamespace, .getVolumeStats, .setLimits,
   .createBlkController, .createScsiController, .deleteVhostController, .getVhostControllers,
   .addTarget, .removeTarget]

/-- The method with a name. -/
def ofName? (name : String) : Option Method :=
  all.find? (·.name == name)

/-- A method is found by its own name. -/
theorem ofName?_name (m : Method) : ofName? m.name = some m := by
  cases m <;> decide

end Method

end StorageControl.Engine
