/-
# What the simulated engine lists

The engine answers a question for its subsystems or its vhost controllers with the rows that it
holds. Each row carries the label under which it is held, so that the rows of a listing have
different labels and the one with a given label is the one that is held under it. Only the row of
the discovery subsystem says that it serves discovery.
-/
import StorageControl.Engine.Query
import StorageControl.Proofs.Contents
import StorageControl.Proofs.Roots

namespace StorageControl

open Engine (Method Script Simulation SubsystemRow VhostRow)
open Engine.Simulation (SameObjects discoveryNqn)

/-! ## Tables with labels -/

namespace Table

variable {α : Type} {P : String → α → Prop} {t : Table α} {k : String} {v : α} {label : α → String}

/-- A property holds of every key and its value. -/
def Each (P : String → α → Prop) (t : Table α) : Prop :=
  ∀ k v, t.find? k = some v → P k v

theorem Each.insert (h : t.Each P) (hv : P k v) : (t.insert k v).Each P := by
  intro j u hu
  rw [find?_insert] at hu
  split at hu
  · rename_i hj
    cases hu
    rwa [hj]
  · exact h j u hu

theorem Each.erase (h : t.Each P) (k : String) : (t.erase k).Each P := by
  intro j u hu
  rw [find?_erase] at hu
  split at hu
  · cases hu
  · exact h j u hu

theorem nodup_keys (t : Table α) : t.keys.Nodup := by
  refine List.pairwise_map.2 (t.ordered.imp fun hlt => ?_)
  exact fun heq => String.lt_irrefl _ (heq ▸ hlt)

/-- The labels of the values are the keys, if each value is labelled with its key. -/
theorem map_values_eq_keys (h : t.Each fun k v => label v = k) : t.values.map label = t.keys := by
  rw [values, keys, List.map_map]
  exact List.map_congr_left fun e he => h _ _ (t.ordered.find?_of_mem he)

theorem nodup_map_values (h : t.Each fun k v => label v = k) : (t.values.map label).Nodup := by
  rw [map_values_eq_keys h]
  exact t.nodup_keys

/-- The value with a label is the one under the label. -/
theorem find?_values (h : t.Each fun k v => label v = k) (k : String) :
    t.values.find? (label · == k) = t.find? k := by
  cases hk : t.find? k with
  | none =>
    rw [List.find?_eq_none]
    intro v hv hlabel
    obtain ⟨j, hj⟩ := exists_find?_of_mem_values hv
    obtain rfl : j = k := (h j v hj).symm.trans (eq_of_beq hlabel)
    rw [hk] at hj
    cases hj
  | some v =>
    have hsome : (t.values.find? (label · == k)).isSome :=
      List.find?_isSome.2 ⟨v, mem_values_of_find? hk, beq_iff_eq.2 (h k v hk)⟩
    obtain ⟨u, hu⟩ := Option.isSome_iff_exists.1 hsome
    have hlabel : label u = k := by simpa using List.find?_some hu
    obtain ⟨j, hj⟩ := exists_find?_of_mem_values (List.mem_of_find?_eq_some hu)
    obtain rfl : j = k := (h j u hj).symm.trans hlabel
    rw [hu, ← hj, hk]

end Table

/-! ## Labels of rows -/

namespace Engine.Simulation

/-- The row of a subsystem carries its qualified name, and tells whether it is the discovery
subsystem. -/
structure LabelsSubsystem (nqn : String) (row : SubsystemRow) : Prop where
  nqn_eq : row.nqn = nqn
  isDiscovery_eq : row.isDiscovery = (nqn == discoveryNqn)

/-- Every row carries the label under which it is held. -/
structure Labelled (s : Simulation) : Prop where
  subsystems : s.subsystems.Each LabelsSubsystem
  vhosts : s.vhosts.Each fun id row => row.ctrlr = id

variable {s s' : Simulation}

theorem Labelled.start : Simulation.start.Labelled where
  subsystems := by
    refine Table.Each.insert (fun _ _ h => by cases h) ⟨rfl, ?_⟩
    decide
  vhosts _ _ h := by cases h

theorem Labelled.of_sameObjects (h : s.Labelled) (hobjects : SameObjects s s') : s'.Labelled := by
  obtain ⟨hsubsystems, hvhosts⟩ := hobjects
  constructor
  · rw [hsubsystems]
    exact h.subsystems
  · rw [hvhosts]
    exact h.vhosts

/-- Only the subsystems change. -/
theorem Labelled.of_subsystems (h : s.Labelled) {rows : Table SubsystemRow}
    (hrows : s'.subsystems = rows) (hvhosts : s'.vhosts = s.vhosts)
    (hlabels : rows.Each LabelsSubsystem) : s'.Labelled := by
  constructor
  · rw [hrows]
    exact hlabels
  · rw [hvhosts]
    exact h.vhosts

/-- Only the vhost controllers change. -/
theorem Labelled.of_vhosts (h : s.Labelled) {rows : Table VhostRow}
    (hsubsystems : s'.subsystems = s.subsystems) (hrows : s'.vhosts = rows)
    (hlabels : rows.Each fun id row => row.ctrlr = id) : s'.Labelled := by
  constructor
  · rw [hsubsystems]
    exact h.subsystems
  · rw [hrows]
    exact hlabels

/-- A subsystem's row that is written anew keeps its label. -/
theorem Labelled.rewrite (h : s.Labelled) {nqn : String} {row row' : SubsystemRow}
    (hrow : s.subsystems.find? nqn = some row) (hnqn : row'.nqn = row.nqn)
    (hsubtype : row'.subtype = row.subtype) :
    (s.subsystems.insert nqn row').Each LabelsSubsystem := by
  refine h.subsystems.insert ⟨hnqn.trans (h.subsystems _ _ hrow).nqn_eq, ?_⟩
  rw [SubsystemRow.isDiscovery, hsubtype]
  exact (h.subsystems _ _ hrow).isDiscovery_eq

/-- The row with a qualified name is the one that is held under it. -/
theorem Labelled.rowOf?_values (h : s.Labelled) (nqn : String) :
    rowOf? nqn s.subsystems.values = s.subsystems.find? nqn := by
  rw [rowOf?, Table.find?_values fun _ _ hrow => (h.subsystems _ _ hrow).nqn_eq]

/-- A vhost controller's row that is written anew keeps its label. -/
theorem Labelled.rewriteVhost (h : s.Labelled) {id : String} {row row' : VhostRow}
    (hrow : s.vhosts.find? id = some row) (hctrlr : row'.ctrlr = row.ctrlr) :
    (s.vhosts.insert id row').Each fun id row => row.ctrlr = id :=
  h.vhosts.insert (hctrlr.trans (h.vhosts _ _ hrow))

end Engine.Simulation

section

open Engine.Simulation (Labelled)

variable {registry : Attach.Registry} {inv : Inventory} {k : Kind} {s s' : Simulation}

/-- What the engine gains carries its label. -/
theorem Gain.labelled {place : Place} {record : k.Record}
    (h : Gain registry inv place s s' k record) (hlabelled : s.Labelled)
    (hdiscovery : (s.subsystems.find? discoveryNqn).isSome) : s'.Labelled := by
  cases h with
  | @subsystem r row hfree _ hnqn hserves _ _ hsubsystems hvhosts =>
    refine hlabelled.of_subsystems hsubsystems hvhosts (hlabelled.subsystems.insert ⟨hnqn, ?_⟩)
    rw [hserves, eq_comm, beq_eq_false_iff_ne]
    intro hdiscoveryNqn
    rw [← hdiscoveryNqn, hfree] at hdiscovery
    cases hdiscovery
  | controller _ _ _ _ hrow _ hsubsystems hvhosts
  | nvmeNamespace _ _ hrow _ _ _ hsubsystems hvhosts =>
    exact hlabelled.of_subsystems hsubsystems hvhosts (hlabelled.rewrite hrow rfl rfl)
  | virtioBlk _ hctrlr _ hsubsystems hvhosts | scsiController _ hctrlr _ hsubsystems hvhosts =>
    exact hlabelled.of_vhosts hsubsystems hvhosts (hlabelled.vhosts.insert hctrlr)
  | scsiLun _ _ hrow _ _ _ _ hsubsystems hvhosts =>
    exact hlabelled.of_vhosts hsubsystems hvhosts (hlabelled.rewriteVhost hrow rfl)

/-- What the engine loses leaves the labels of the rest alone. -/
theorem Loss.labelled {name : String} {record : k.Record}
    (h : Loss registry inv name s s' k record) (hlabelled : s.Labelled) : s'.Labelled := by
  cases h with
  | subsystem hsubsystems hvhosts =>
    exact hlabelled.of_subsystems hsubsystems hvhosts (hlabelled.subsystems.erase _)
  | controller _ _ hrow _ hsubsystems hvhosts | nvmeNamespace _ hrow _ hsubsystems hvhosts =>
    exact hlabelled.of_subsystems hsubsystems hvhosts (hlabelled.rewrite hrow rfl rfl)
  | virtioBlk hsubsystems hvhosts | scsiController hsubsystems hvhosts =>
    exact hlabelled.of_vhosts hsubsystems hvhosts (hlabelled.vhosts.erase _)
  | scsiLun _ hrow _ _ hsubsystems hvhosts =>
    exact hlabelled.of_vhosts hsubsystems hvhosts (hlabelled.rewriteVhost hrow rfl)

/-- A number that stays behind leaves the labels alone. -/
theorem Litter.labelled (h : Litter s s') (hlabelled : s.Labelled) : s'.Labelled := by
  cases h with
  | nvmeNamespace hrow _ _ hsubsystems hvhosts =>
    exact hlabelled.of_subsystems hsubsystems hvhosts (hlabelled.rewrite hrow rfl rfl)
  | scsiLun hrow _ _ _ hsubsystems hvhosts =>
    exact hlabelled.of_vhosts hsubsystems hvhosts (hlabelled.rewriteVhost hrow rfl)

/-- After any actions every row of the engine carries its label. -/
theorem World.labelled_after (registry : Attach.Registry) (actions : List World.Action) :
    (World.after registry actions).engine.Labelled := by
  -- That the discovery subsystem stays is part of the agreement of the roots.
  refine (World.invariant (P := fun w => w.Rooted ∧ w.engine.Labelled)
    ⟨⟨.start, .start⟩, .start⟩ (fun w a ⟨hroot, hlabelled⟩ => ⟨hroot.act a, ?_⟩) actions).2
  cases w.shift registry a with
  | same _ hobjects | revised _ _ _ _ hobjects => exact hlabelled.of_sameObjects hobjects
  | littered _ hlitter => exact hlitter.labelled hlabelled
  | made _ _ _ _ hgain => exact hgain.labelled hlabelled hroot.subsystems.discovery
  | dropped _ _ hloss => exact hloss.labelled hlabelled

end

/-! ## Questions -/

namespace Engine

variable {α β : Type} {s : Simulation}

/-- A script goes on with what the engine has answered as a value of a type. -/
theorem Script.run_call_bind {c : Codec α} (hc : c.Lawful) {m : Method} {params : Option Json}
    {a : α} (hanswer : s.answer ⟨m, params⟩ = (.ok (c.encode a), s)) (f : α → Script β) :
    ((Script.call ⟨m, params⟩ (Script.receive m c)).bind f).run Simulation.answer s =
      (f a).run Simulation.answer s := by
  have hreceive : Script.receive m c (.ok (c.encode a)) = .done a := by
    rw [Script.receive, Answer.decode, hc a]
    rfl
  show ((Script.receive m c (s.answer ⟨m, params⟩).1).bind f).run Simulation.answer
    (s.answer ⟨m, params⟩).2 = _
  rw [hanswer, hreceive]
  rfl

/-- The engine lists the subsystems that it holds. -/
theorem run_subsystems_bind (f : List SubsystemRow → Script β) :
    (subsystems.bind f).run Simulation.answer s =
      (f s.subsystems.values).run Simulation.answer s :=
  Script.run_call_bind (Codec.list_lawful (SubsystemRow.codec_sound 0).1) rfl f

theorem Simulation.answer_getVhostControllers (s : Simulation) (query : VhostQuery)
    {rows : List VhostRow} (hrows : s.vhostControllers query = .ok rows) :
    s.answer (Method.getVhostControllers.on VhostQuery.codec query) =
      (.ok (VhostRow.codec.list.encode rows), s) := by
  rw [answer_eq_settled]
  show settled id (do
    let rows ← s.vhostControllers (← receive VhostQuery.codec (some (VhostQuery.codec.encode query)))
    return (VhostRow.codec.list.encode rows, s)) s = _
  rw [receive_encode (VhostQuery.codec_sound 0).lawful]
  simp [hrows, settled, bind, Except.bind, pure, Except.pure]

/-- The engine lists the vhost controllers that it holds. -/
theorem run_vhostControllers_bind (f : List VhostRow → Script β) :
    ((vhostControllers none).bind f).run Simulation.answer s =
      (f s.vhosts.values).run Simulation.answer s :=
  Script.run_call_bind (Codec.list_lawful (VhostRow.codec_sound 0).lawful)
    (s.answer_getVhostControllers {} rfl) f

/-- The engine lists the one vhost controller that it is asked for. -/
theorem run_vhostController_bind {id : String} {row : VhostRow}
    (hrow : s.vhosts.find? id = some row) (f : List VhostRow → Script β) :
    ((vhostControllers (some id)).bind f).run Simulation.answer s =
      (f [row]).run Simulation.answer s := by
  refine Script.run_call_bind (Codec.list_lawful (VhostRow.codec_sound 0).lawful)
    (s.answer_getVhostControllers { name := some id } ?_) f
  simp [Simulation.vhostControllers, Simulation.demand, hrow, bind, Except.bind]

end Engine

end StorageControl
