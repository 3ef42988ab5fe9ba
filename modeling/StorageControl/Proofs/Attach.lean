/-
# What attaching depends on

A listener belongs to the subsystem that it is made for, and its address depends on the controller
alone. A vhost controller has the id of its device.
-/
import StorageControl.Attach.Vhost
import StorageControl.Proofs.Name

namespace StorageControl.Attach

variable {registry : Registry} {c c' : Controller} {s s' : Subsystem}

/-- A listener is made for the subsystem's qualified name. -/
theorem Registry.nqn_of_listener {listener : Engine.Listener}
    (h : registry.listener c s = .ok listener) : listener.nqn = s.spec.nqn := by
  obtain ⟨_, _, h⟩ := Check.bind_eq_ok_iff.1 h
  cases htrtype : c.spec.trtype <;> rw [htrtype] at h <;>
    (obtain ⟨address, -, h⟩ := Check.bind_eq_ok_iff.1 h; cases h; rfl)

theorem fabricAddress_congr (kind : TransportKind) (base : Config.FabricListener)
    (hname : c'.name = c.name) (hendpoint : c'.spec.endpoint = c.spec.endpoint) :
    fabricAddress kind base c' = fabricAddress kind base c := by
  unfold fabricAddress
  rw [hname, hendpoint]

theorem emulatedAddress_congr (base : Config.SocketBase) (hname : c'.name = c.name)
    (hendpoint : c'.spec.endpoint = c.spec.endpoint) :
    emulatedAddress base c' = emulatedAddress base c := by
  unfold emulatedAddress
  rw [hname, hendpoint]

/-- Controllers with the same name, transport and endpoint listen at the same address, whatever the
subsystem. -/
theorem Registry.address_congr (hname : c'.name = c.name) (htrtype : c'.spec.trtype = c.spec.trtype)
    (hendpoint : c'.spec.endpoint = c.spec.endpoint) :
    (registry.listener c' s').map (·.listenAddress) =
      (registry.listener c s).map (·.listenAddress) := by
  unfold Registry.listener
  rw [htrtype]
  cases registry.check c.spec.trtype with
  | error e => rfl
  | ok _ =>
    cases c.spec.trtype with
    | pcie =>
      show (emulatedAddress _ c' >>= fun address => _).map _ =
        (emulatedAddress _ c >>= fun address => _).map _
      rw [emulatedAddress_congr _ hname hendpoint]
      cases emulatedAddress registry.config.vfioUser c <;> rfl
    | tcp | rdma =>
      show (fabricAddress _ _ c' >>= fun address => _).map _ =
        (fabricAddress _ _ c >>= fun address => _).map _
      rw [fabricAddress_congr _ _ hname hendpoint]
      cases fabricAddress _ registry.config.tcp c <;> rfl

/-- The vhost controller of a virtio-blk device has the device's id and volume. -/
theorem eq_of_blkController {id : String} {d : VirtioBlk} {params : Engine.CreateBlkController}
    (h : blkController id d = .ok params) :
    params.ctrlr = id ∧ params.devName = d.volumeNameRef := by
  obtain ⟨_, _, h⟩ := Check.bind_eq_ok_iff.1 h
  split at h
  · cases h
  · cases h
    exact ⟨rfl, rfl⟩

/-- The vhost controller of a SCSI controller has the controller's id. -/
theorem eq_of_scsiController {id : String} {c : ScsiController} {params : Engine.VhostRef}
    (h : scsiController id c = .ok params) : params.ctrlr = id := by
  obtain ⟨_, _, h⟩ := Check.bind_eq_ok_iff.1 h
  cases h
  rfl

end StorageControl.Attach
