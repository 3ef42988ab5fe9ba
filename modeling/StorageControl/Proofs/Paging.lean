/-
# Pages make up the listing

Each page of a listing starts where the page before it has stopped, because its token stands for
that place and no other listing gives the token another one. So the pages of a reader who goes on
until there is no token are the listing, cut into pieces.
-/
import StorageControl.Inventory.Browse
import StorageControl.Inventory.World
import StorageControl.Proofs.Frame
import StorageControl.Proofs.Slicing

namespace StorageControl

open Engine (Answer Call Script Simulation)

/-! ## Windows -/

/-- A page size above zero, as a word. -/
theorem toNat_pageSize {size : Int32} (h : 0 < size) :
    (UInt64.ofNat size.toInt.toNat).toNat = size.toInt.toNat ∧ 0 < size.toInt.toNat := by
  have hpos : 0 < size.toInt := by simpa using Int32.lt_iff_toInt_lt.1 h
  have hlt := size.toInt_lt
  refine ⟨?_, by omega⟩
  rw [UInt64.toNat_ofNat']
  omega

/-- Without a size and from the beginning the window shows everything. -/
theorem Window.slice_whole {α : Type} (items : List α) :
    (⟨0, 0⟩ : Window).slice items = (items, false) :=
  slice_of_no_size rfl

namespace Cursors

variable {cursors : Cursors} {token : String} {offset : UInt64}

/-- The token stands for an offset. Without a token a listing starts at the beginning. -/
inductive StandsFor (cursors : Cursors) : String → UInt64 → Prop
  | start : StandsFor cursors "" 0
  | kept {token : String} {offset : UInt64} (htoken : token.isEmpty = false)
      (hfind : cursors.find? token = some offset) : StandsFor cursors token offset

/-- The window that a reader asks for with a token. -/
theorem StandsFor.window (h : cursors.StandsFor token offset) {size : Int32} (hsize : 0 ≤ size) :
    cursors.window size token = .ok ⟨UInt64.ofNat size.toInt.toNat, offset⟩ := by
  have hneg : ¬ size < 0 := Int32.not_lt.2 hsize
  unfold Cursors.window
  rw [if_neg hneg]
  cases h with
  | start => rfl
  | kept htoken hfind => rw [htoken, if_neg nofun, hfind]

variable {α : Type} {items : List α} {w : Window} {fresh : String}

/-- A page that is not the last one comes with the fresh token, which stands for the next window. -/
theorem paginate_of_lt (hsize : w.size ≠ 0) (hitems : items.length < UInt64.size)
    (hmore : w.offset.toNat + w.size.toNat < items.length) :
    cursors.paginate fresh items w =
      (((items.drop w.offset.toNat).take w.size.toNat, fresh), cursors.insert fresh w.next) := by
  rw [paginate_of_more cursors fresh ((Window.more_iff hitems).2 ⟨hsize, hmore⟩),
    Window.slice_of_size hsize hitems]

/-- The last page shows all that is left, and comes without a token. -/
theorem paginate_of_le (hitems : items.length < UInt64.size)
    (hlast : items.length ≤ w.offset.toNat + w.size.toNat) :
    cursors.paginate fresh items w = ((items.drop w.offset.toNat, ""), cursors) := by
  have hnone : (w.slice items).2 = false :=
    Bool.eq_false_iff.2 fun h => Nat.not_lt.2 hlast ((Window.more_iff hitems).1 h).2
  rw [paginate_of_last cursors fresh hnone, Window.slice_of_last hitems hnone]

end Cursors

/-! ## Asking for a page -/

namespace Procedure

variable {α β σ : Type} {engine : σ → Call → Answer × σ} {s : σ}

/-- What comes of two procedures in a row. -/
theorem result_bind (x : Procedure α) (f : α → Procedure β) (s : σ) :
    ((x.bind f).run engine s).result = (x.run engine s).result.bind fun a =>
      ((f a).run engine (x.run engine s).engine).result := by
  induction x generalizing s with
  | done a => rfl
  | failed e => rfl
  | call request resume ih => exact ih _ _
  | change c rest ih => exact ih _

/-- What happens in two procedures in a row, if the first one does not fail. -/
theorem events_bind {x : Procedure α} {a : α} (f : α → Procedure β)
    (h : (x.run engine s).result = .ok a) :
    ((x.bind f).run engine s).events =
      (x.run engine s).events ++ ((f a).run engine (x.run engine s).engine).events := by
  induction x generalizing s with
  | done a' =>
    cases h
    rfl
  | failed e => cases h
  | call request resume ih => exact congrArg (_ :: ·) (ih _ h)
  | change c rest ih => exact congrArg (_ :: ·) (ih h)

/-- A script changes nothing that is kept. -/
theorem after_ofScript (x : Script α) (inv : Inventory) (s : σ) :
    inv.after ((ofScript x).run engine s).events = inv := by
  obtain ⟨t, -, ht⟩ := goes_ofScript_iff.1 (goes_run engine (ofScript x) s)
  rw [ht]
  exact inv.after_map_asked t

end Procedure

namespace Inventory

variable {σ : Type} {registry : Attach.Registry} {engine : σ → Call → Answer × σ}
  {inv : Inventory} {s : σ} {k : Kind}

/-- The records that are there to be listed under a parent. -/
def listed (registry : Attach.Registry) (k : Kind) (parent : String) (inv : Inventory) :
    Script (List k.Record) :=
  (Script.check (Place.parentOf k parent "")).bind fun parent =>
    (k.family registry).items inv parent

/-- A page is cut from the records that are listed. -/
theorem list_eq (fresh : String) (request : ListRequest) {w : Window}
    (hw : inv.cursors.window request.pageSize request.pageToken = .ok w) :
    inv.list registry k fresh request =
      (Procedure.ofScript (inv.listed registry k request.parent)).bind fun records =>
        let cut := inv.cursors.paginate fresh (byName records) w
        (Procedure.make (.hand cut.2)).bind fun _ =>
          .done { items := cut.1.1, nextPageToken := cut.1.2 } := by
  rw [list, hw, listed]
  cases Place.parentOf k request.parent "" <;> rfl

/-- What comes of a listing, and which tokens there are after it. -/
theorem run_list (fresh : String) (request : ListRequest) {w : Window} {records : List k.Record}
    (hw : inv.cursors.window request.pageSize request.pageToken = .ok w)
    (hlisted :
      ((Procedure.ofScript (inv.listed registry k request.parent)).run engine s).result =
        .ok records) :
    let course := (inv.list registry k fresh request).run engine s
    let cut := inv.cursors.paginate fresh (byName records) w
    course.result = .ok { items := cut.1.1, nextPageToken := cut.1.2 } ∧
      (inv.after course.events).cursors = cut.2 := by
  intro course cut
  rw [show course = _ from congrArg (Procedure.run engine · s) (list_eq fresh request hw)]
  constructor
  · rw [Procedure.result_bind, hlisted]
    rfl
  · rw [Procedure.events_bind _ hlisted, after_append, Procedure.after_ofScript]
    rfl

end Inventory

/-! ## Reading on -/

section Browse

variable {σ : Type} {registry : Attach.Registry} {engine : σ → Call → Answer × σ} {k : Kind}
  {parent : String}

/-- What an unpaged listing would give at a visit. -/
def Visit.whole (registry : Attach.Registry) (engine : σ → Call → Answer × σ) (parent : String)
    (v : Visit k σ) : Except Fault (List k.Record) :=
  ((v.inventory.list registry k "" { parent }).run engine v.engine).result.map (·.items)

variable {inv : Inventory} {s : σ} {all : List k.Record}

/-- The items of an unpaged listing are the records that are listed, by name. -/
theorem Visit.whole_eq (v : Visit k σ) :
    v.whole registry engine parent =
      ((Procedure.ofScript (v.inventory.listed registry k parent)).run engine v.engine).result.map
        Inventory.byName := by
  let request : ListRequest := { parent }
  have hw : v.inventory.cursors.window request.pageSize request.pageToken = .ok ⟨0, 0⟩ := rfl
  cases hlisted :
      ((Procedure.ofScript (v.inventory.listed registry k parent)).run engine v.engine).result with
  | error e =>
    rw [whole, Inventory.list_eq "" request hw, Procedure.result_bind, hlisted]
    rfl
  | ok records =>
    rw [whole, (Inventory.run_list "" request hw hlisted).1, Cursors.paginate, Window.slice_whole]
    rfl

theorem exists_listed {v : Visit k σ} (h : v.whole registry engine parent = .ok all) :
    ∃ records, ((Procedure.ofScript (v.inventory.listed registry k parent)).run engine
      v.engine).result = .ok records ∧ all = Inventory.byName records := by
  rw [Visit.whole_eq] at h
  cases hlisted :
      ((Procedure.ofScript (v.inventory.listed registry k parent)).run engine v.engine).result with
  | error e =>
    rw [hlisted] at h
    cases h
  | ok records =>
    rw [hlisted] at h
    cases h
    exact ⟨records, rfl, rfl⟩

/-- The items of a listing come in the order of their names. -/
theorem pairwise_name_byName {ρ : Type} [Resource ρ] (records : List ρ) :
    (Inventory.byName records).Pairwise fun a b => Resource.name a ≤ Resource.name b := by
  refine (List.pairwise_mergeSort (fun a b c hab hbc => ?_) (fun a b => ?_) records).imp
    of_decide_eq_true
  · exact decide_eq_true (String.le_trans (of_decide_eq_true hab) (of_decide_eq_true hbc))
  · rw [Bool.or_eq_true, decide_eq_true_iff, decide_eq_true_iff]
    exact String.le_total _ _

/-- A page that is asked for with a token shows the items from the place that the token stands for
on. If it is not the last one, its own token stands for the place where it stops. -/
theorem ask_of_standsFor {leaf : Leaf} {token : String} {offset : UInt64}
    {r : Except Fault (Page k.Record)}
    (hwhole : Visit.whole registry engine parent ⟨inv, s, r⟩ = .ok all)
    (hall : all.length < UInt64.size) (hstands : inv.cursors.StandsFor token offset)
    (hsize : 0 < leaf.size) :
    let course := inv.ask registry engine k leaf.bits (leaf.request parent token) s
    let fresh := Uuid.text leaf.bits
    let size := leaf.size.toInt.toNat
    (offset.toNat + size < all.length ∧
        course.result = .ok ⟨(all.drop offset.toNat).take size, fresh⟩ ∧
        ∃ next : UInt64, next.toNat = offset.toNat + size ∧
          (inv.after course.events).cursors = inv.cursors.insert fresh next) ∨
      (all.length ≤ offset.toNat + size ∧ course.result = .ok ⟨all.drop offset.toNat, ""⟩) := by
  intro course fresh size
  obtain ⟨records, hlisted, rfl⟩ := exists_listed hwhole
  obtain ⟨hcount, hpos⟩ := toNat_pageSize hsize
  let w : Window := ⟨UInt64.ofNat leaf.size.toInt.toNat, offset⟩
  have hcount : w.size.toNat = size := hcount
  have hne : w.size ≠ 0 := by
    intro hzero
    rw [hzero] at hcount
    exact Nat.ne_of_lt hpos hcount
  have hw : inv.cursors.window leaf.size token = .ok w := hstands.window (Int32.le_of_lt hsize)
  obtain ⟨hresult, hcursors⟩ := Inventory.run_list fresh (leaf.request parent token) hw hlisted
  rcases Nat.lt_or_ge (offset.toNat + size) (Inventory.byName records).length with hmore | hlast
  · have hmore' : w.offset.toNat + w.size.toNat < (Inventory.byName records).length := by
      rw [hcount]
      exact hmore
    rw [Cursors.paginate_of_lt hne hall hmore', hcount] at hresult
    rw [Cursors.paginate_of_lt hne hall hmore'] at hcursors
    refine .inl ⟨hmore, hresult, w.next, ?_, hcursors⟩
    rw [Window.toNat_next (by omega), hcount]
  · rw [Cursors.paginate_of_le hall (by rw [hcount]; exact hlast)] at hresult
    exact .inr ⟨hlast, hresult⟩

/-! ## Listings in pieces -/

/-- Items are cut into pages, no longer than the leaves say. Only the last page has no token, and a
page before it shows something and leaves something. -/
inductive CutInto {ρ : Type} : List Leaf → List ρ → List (Page ρ) → Prop
  | last {leaf : Leaf} {leaves : List Leaf} {items : List ρ}
      (hsize : items.length ≤ leaf.size.toInt.toNat) :
      CutInto (leaf :: leaves) items [⟨items, ""⟩]
  | more (leaf : Leaf) (token : String) {leaves : List Leaf} {shown rest : List ρ}
      {pages : List (Page ρ)} (hshown : shown ≠ []) (hsize : shown.length ≤ leaf.size.toInt.toNat)
      (hrest : rest ≠ []) (h : CutInto leaves rest pages) :
      CutInto (leaf :: leaves) (shown ++ rest) (⟨shown, token⟩ :: pages)

namespace CutInto

variable {ρ : Type} {leaves : List Leaf} {items : List ρ} {pages : List (Page ρ)}

/-- The pages in a row are the items. -/
theorem flatMap_eq (h : CutInto leaves items pages) : pages.flatMap (·.items) = items := by
  induction h with
  | last _ => simp
  | more _ _ _ _ _ _ ih => rw [List.flatMap_cons, ih]

/-- The last page has no token. -/
theorem getLast?_token (h : CutInto leaves items pages) :
    pages.getLast?.map (·.nextPageToken) = some "" := by
  induction h with
  | last _ => rfl
  | @more _ _ _ _ _ pages _ _ _ _ ih =>
    cases pages with
    | nil => cases ih
    | cons page pages => rwa [List.getLast?_cons_cons]

/-- No page is longer than its leaf says. -/
theorem forall₂_length_le (h : CutInto leaves items pages) :
    List.Forall₂ (fun page leaf => page.items.length ≤ leaf.size.toInt.toNat) pages
      (leaves.take pages.length) := by
  induction h with
  | last hsize => exact .cons hsize .nil
  | more _ _ _ hsize _ _ ih => exact .cons hsize ih

/-- If there are items at all, every page shows some. -/
theorem items_ne_nil (h : CutInto leaves items pages) (hitems : items ≠ []) :
    ∀ page ∈ pages, page.items ≠ [] := by
  induction h with
  | last _ => simpa using hitems
  | more _ _ hshown _ hrest _ ih => simpa using ⟨hshown, ih hrest⟩

/-- Only the first page can be empty. -/
theorem items_ne_nil_of_mem_tail (h : CutInto leaves items pages) :
    ∀ page ∈ pages.tail, page.items ≠ [] := by
  cases h with
  | last _ => simp
  | more _ _ _ _ hrest h => exact h.items_ne_nil hrest

end CutInto

/-! ## Listings in between -/

/-- A fresh text is never empty. -/
theorem Uuid.isEmpty_text (bits : Nat) : (Uuid.text bits).isEmpty = false := by
  rw [Bool.eq_false_iff, Ne, String.isEmpty_iff]
  intro hempty
  have hid := Uuid.isId_text bits
  rw [hempty] at hid
  exact absurd hid (by decide)

variable (registry engine) in
/-- A listing leaves the records alone, and every token but its own. -/
theorem frame_ask (k : Kind) (bits : Nat) (request : ListRequest) (inv : Inventory) (s : σ) :
    let now := inv.after (inv.ask registry engine k bits request s).events
    (∀ j, now.table j = inv.table j) ∧
      ∀ token, token ≠ Uuid.text bits → now.cursors.find? token = inv.cursors.find? token := by
  intro now
  have hgo : (inv.list registry k (Uuid.text bits) request).Goes
      (inv.ask registry engine k bits request s).events
      (inv.ask registry engine k bits request s).result := Procedure.goes_run _ _ _
  cases hresult : (inv.ask registry engine k bits request s).result with
  | error e =>
    rw [hresult] at hgo
    have hturn : Turn registry (Uuid.text bits) inv (.list request) _ (.error e) :=
      turn_of_goes (Procedure.goes_map_iff.2 ⟨_, hgo, rfl⟩)
    have hsame : now = inv := hturn.after_of_error
    rw [hsame]
    exact ⟨fun _ => rfl, fun _ _ => rfl⟩
  | ok page =>
    rw [hresult] at hgo
    have hturn : Turn registry (Uuid.text bits) inv (.list request) _ (.ok (.page page)) :=
      turn_of_goes (Procedure.goes_map_iff.2 ⟨_, hgo, rfl⟩)
    obtain ⟨htables, hcursors⟩ := hturn.frame_of_ok
    refine ⟨htables, fun token htoken => ?_⟩
    rcases hcursors with hsame | ⟨offset, hinsert⟩
    · exact congrArg (·.find? token) hsame
    · exact (congrArg (·.find? token) hinsert).trans (Table.find?_insert_of_ne _ htoken _)

variable (registry engine) in
/-- So do listings that are asked for one after another. -/
theorem frame_askAll (listings : List Listing) (inv : Inventory) (s : σ) :
    let now := (inv.askAll registry engine listings s).1
    (∀ j, now.table j = inv.table j) ∧
      ∀ token, token ∉ listings.map (fun l => Uuid.text l.bits) →
        now.cursors.find? token = inv.cursors.find? token := by
  induction listings generalizing inv s with
  | nil => exact ⟨fun _ => rfl, fun _ _ => rfl⟩
  | cons l listings ih =>
    obtain ⟨htables, htokens⟩ := ih (inv.after (inv.ask registry engine l.kind l.bits l.request
      s).events) (inv.ask registry engine l.kind l.bits l.request s).engine
    obtain ⟨htables', htokens'⟩ := frame_ask registry engine l.kind l.bits l.request inv s
    refine ⟨fun j => (htables j).trans (htables' j), fun token htoken => ?_⟩
    rw [List.map_cons, List.mem_cons, not_or] at htoken
    exact (htokens token htoken.2).trans (htokens' token htoken.1)

/-! ## Reading to the end -/

variable {leaf : Leaf} {leaves : List Leaf} {token : String}

/-- The first page is asked for at once. -/
theorem mem_browse (leaf : Leaf) (leaves : List Leaf) (token : String) (inv : Inventory) (s : σ) :
    ⟨inv, s, (inv.ask registry engine k leaf.bits (leaf.request parent token) s).result⟩ ∈
      inv.browse registry engine k parent (leaf :: leaves) token s := by
  simp only [Inventory.browse]
  split
  · exact List.mem_singleton_self _
  · split
    · exact List.mem_singleton_self _
    · exact List.mem_cons_self

/-- A page without a token ends the reading. -/
theorem browse_of_last {page : Page k.Record}
    (hresult :
      (inv.ask registry engine k leaf.bits (leaf.request parent token) s).result = .ok page)
    (hend : page.nextPageToken.isEmpty = true) (leaves : List Leaf) :
    inv.browse registry engine k parent (leaf :: leaves) token s = [⟨inv, s, .ok page⟩] := by
  simp only [Inventory.browse, hresult, hend, if_true]

/-- After a page with a token the reading goes on. -/
theorem browse_of_more {page : Page k.Record}
    (hresult :
      (inv.ask registry engine k leaf.bits (leaf.request parent token) s).result = .ok page)
    (hmore : page.nextPageToken.isEmpty = false) (leaves : List Leaf) :
    let course := inv.ask registry engine k leaf.bits (leaf.request parent token) s
    let now := (inv.after course.events).askAll registry engine leaf.between course.engine
    inv.browse registry engine k parent (leaf :: leaves) token s =
      ⟨inv, s, .ok page⟩ ::
        now.1.browse registry engine k parent leaves page.nextPageToken now.2 := by
  simp only [Inventory.browse, hresult, hmore]
  rfl

/-- The texts that may become tokens are all different, and none of them is a token already. -/
def Fresh (leaves : List Leaf) (cursors : Cursors) : Prop :=
  (leaves.flatMap Leaf.texts).Nodup ∧ ∀ text ∈ leaves.flatMap Leaf.texts, cursors.find? text = none

/-- After a page and the listings in between, the token of the page still stands for the place where
the page stops, and the texts of the other leaves are still fresh. -/
theorem Fresh.go_on {offset : UInt64} {now : Inventory}
    (hfresh : Fresh (leaf :: leaves) inv.cursors)
    (hnow : now.cursors = inv.cursors.insert (Uuid.text leaf.bits) offset) (s : σ) :
    let later := (now.askAll registry engine leaf.between s).1
    later.cursors.StandsFor (Uuid.text leaf.bits) offset ∧ Fresh leaves later.cursors := by
  intro later
  obtain ⟨hnodup, hnew⟩ := hfresh
  rw [List.flatMap_cons] at hnodup hnew
  obtain ⟨hleaf, hleaves, hdisjoint⟩ := List.nodup_append.1 hnodup
  obtain ⟨hown, -⟩ := List.nodup_cons.1 hleaf
  constructor
  · refine .kept (Uuid.isEmpty_text _) ?_
    rw [(frame_askAll registry engine _ _ _).2 _ hown, hnow, Table.find?_insert_self]
  · refine ⟨hleaves, fun text htext => ?_⟩
    have hne (other : String) (hother : other ∈ leaf.texts) : text ≠ other :=
      fun h => hdisjoint other hother text htext h.symm
    have hbetween : text ∉ leaf.between.map fun l => Uuid.text l.bits :=
      fun h => hne text (List.mem_cons_of_mem _ h) rfl
    rw [(frame_askAll registry engine _ _ _).2 _ hbetween, hnow,
      Table.find?_insert_of_ne _ (hne _ List.mem_cons_self)]
    exact hnew text (List.mem_append_right _ htext)

/-- A reader who has got to some place of a listing, and has leaves enough, reads the rest of it. -/
theorem exists_pages_of_standsFor (hall : all.length < UInt64.size) (leaves : List Leaf)
    (hsizes : ∀ leaf ∈ leaves, 0 < leaf.size) (token : String) (offset : UInt64) (inv : Inventory)
    (s : σ)
    (hwhole : ∀ v ∈ inv.browse registry engine k parent leaves token s,
      v.whole registry engine parent = .ok all)
    (hfresh : Fresh leaves inv.cursors) (hstands : inv.cursors.StandsFor token offset)
    (hmany : all.length - offset.toNat < leaves.length) :
    ∃ pages : List (Page k.Record),
      (inv.browse registry engine k parent leaves token s).map (·.result) = pages.map .ok ∧
        CutInto leaves (all.drop offset.toNat) pages := by
  induction leaves generalizing token offset inv s with
  | nil => exact absurd hmany (Nat.not_lt_zero _)
  | cons leaf leaves ih =>
    have hsize := hsizes leaf List.mem_cons_self
    have hpos := (toNat_pageSize hsize).2
    rw [List.length_cons] at hmany
    rcases ask_of_standsFor (hwhole _ (mem_browse leaf leaves token inv s)) hall hstands hsize with
      ⟨hmore, hresult, next, hnext, hcursors⟩ | ⟨hlast, hresult⟩
    · have hleft : all.length - next.toNat < leaves.length := by omega
      let course := inv.ask registry engine k leaf.bits (leaf.request parent token) s
      let now := (inv.after course.events).askAll registry engine leaf.between course.engine
      have hbrowse : inv.browse registry engine k parent (leaf :: leaves) token s =
          _ :: now.1.browse registry engine k parent leaves (Uuid.text leaf.bits) now.2 :=
        browse_of_more hresult (Uuid.isEmpty_text _) leaves
      rw [hbrowse] at hwhole ⊢
      obtain ⟨hstands', hfresh'⟩ : now.1.cursors.StandsFor (Uuid.text leaf.bits) next ∧
          Fresh leaves now.1.cursors := hfresh.go_on hcursors course.engine
      obtain ⟨pages, hresults, hcut⟩ := ih (fun l hl => hsizes l (List.mem_cons_of_mem _ hl))
        (Uuid.text leaf.bits) next now.1 now.2 (fun v hv => hwhole v (List.mem_cons_of_mem _ hv))
        hfresh' hstands' hleft
      refine ⟨_ :: pages, congrArg (_ :: ·) hresults, ?_⟩
      rw [hnext, ← List.drop_drop] at hcut
      have hrest : 0 < ((all.drop offset.toNat).drop leaf.size.toInt.toNat).length := by
        rw [List.length_drop, List.length_drop]
        omega
      have hshown : 0 < ((all.drop offset.toNat).take leaf.size.toInt.toNat).length := by
        rw [List.length_take, List.length_drop]
        omega
      have hmade := CutInto.more leaf (Uuid.text leaf.bits)
        (List.ne_nil_of_length_pos hshown) (List.length_take_le _ _)
        (List.ne_nil_of_length_pos hrest) hcut
      rwa [List.take_append_drop] at hmade
    · rw [browse_of_last hresult rfl]
      refine ⟨[_], rfl, .last ?_⟩
      rw [List.length_drop]
      omega

/-! ## Listings that stay the same -/

/-- What is there to be listed does not depend on the tokens. -/
theorem Inventory.listed_congr {i j : Inventory} (h : ∀ k, i.table k = j.table k) (k : Kind)
    (parent : String) : i.listed registry k parent = j.listed registry k parent := by
  have hi : i = { j with cursors := i.cursors } := Inventory.ext_table (fun k => by
    rw [h k]
    cases k <;> rfl) rfl
  rw [hi]
  cases k <;> rfl

variable (hstill : ∀ s call, (engine s call).2 = s)

include hstill

/-- An engine that stays as it is stays so while a procedure runs. -/
theorem Procedure.engine_run {α : Type} (p : Procedure α) (s : σ) :
    (p.run engine s).engine = s := by
  induction p generalizing s with
  | done a => rfl
  | failed e => rfl
  | call request resume ih => exact (ih _ _).trans (hstill s request)
  | change c rest ih => exact ih s

theorem engine_askAll (listings : List Listing) (inv : Inventory) (s : σ) :
    (inv.askAll registry engine listings s).2 = s := by
  induction listings generalizing inv s with
  | nil => rfl
  | cons l listings ih => exact (ih _ _).trans (Procedure.engine_run hstill _ s)

/-- While a listing is read from an engine that stays as it is, neither the engine nor the records
change. -/
theorem same_of_mem_browse (leaves : List Leaf) (token : String) (inv : Inventory)
    {v : Visit k σ} (hv : v ∈ inv.browse registry engine k parent leaves token s) :
    v.engine = s ∧ ∀ j, v.inventory.table j = inv.table j := by
  induction leaves generalizing token inv with
  | nil => cases hv
  | cons leaf leaves ih =>
    simp only [Inventory.browse] at hv
    split at hv
    · obtain rfl := List.mem_singleton.1 hv
      exact ⟨rfl, fun _ => rfl⟩
    · rename_i page hresult
      split at hv
      · obtain rfl := List.mem_singleton.1 hv
        exact ⟨rfl, fun _ => rfl⟩
      · rcases List.mem_cons.1 hv with rfl | hv
        · exact ⟨rfl, fun _ => rfl⟩
        · rw [engine_askAll hstill, Inventory.ask, Procedure.engine_run hstill] at hv
          obtain ⟨hengine, htables⟩ := ih _ _ hv
          refine ⟨hengine, fun j => (htables j).trans ?_⟩
          exact ((frame_askAll registry engine _ _ _).1 j).trans
            ((frame_ask registry engine k leaf.bits (leaf.request parent token) inv s).1 j)

/-- So the listing stays the same. -/
theorem Visit.whole_of_mem_browse {v : Visit k σ}
    (hv : v ∈ inv.browse registry engine k parent leaves token s) :
    v.whole registry engine parent =
      ((Procedure.ofScript (inv.listed registry k parent)).run engine s).result.map
        Inventory.byName := by
  obtain ⟨hengine, htables⟩ := same_of_mem_browse hstill leaves token inv hv
  rw [Visit.whole_eq, hengine, Inventory.listed_congr htables]

omit hstill

/-! ## The pages -/

/-- A reader who has leaves enough reads a listing that stays the same to its end. The pages in a
row are the items of the unpaged listing, in the order of their names. No page is too long, and only
the first one can be empty. A listing in memory has fewer items than a word can count, and a leaf
more than it has items is enough, because every page but the first shows some. -/
theorem Inventory.exists_pages_of_browse (leaves : List Leaf) (inv : Inventory) (s : σ)
    (hwhole : ∀ v ∈ inv.browse registry engine k parent leaves "" s,
      v.whole registry engine parent = .ok all)
    (hall : all.length < UInt64.size) (hsizes : ∀ leaf ∈ leaves, 0 < leaf.size)
    (hmany : all.length < leaves.length) (hfresh : Fresh leaves inv.cursors) :
    ∃ pages : List (Page k.Record),
      (inv.browse registry engine k parent leaves "" s).map (·.result) = pages.map .ok ∧
        pages.flatMap (·.items) = all ∧
        all.Pairwise (fun a b => Resource.name a ≤ Resource.name b) ∧
        pages.getLast?.map (·.nextPageToken) = some "" ∧
        List.Forall₂ (fun page leaf => page.items.length ≤ leaf.size.toInt.toNat) pages
          (leaves.take pages.length) ∧
        ∀ page ∈ pages.tail, page.items ≠ [] := by
  obtain ⟨pages, hresults, hcut⟩ := exists_pages_of_standsFor hall leaves hsizes "" 0 inv s hwhole
    hfresh .start (Nat.lt_of_le_of_lt (Nat.sub_le _ _) hmany)
  refine ⟨pages, hresults, hcut.flatMap_eq, ?_, hcut.getLast?_token, hcut.forall₂_length_le,
    hcut.items_ne_nil_of_mem_tail⟩
  cases leaves with
  | nil => exact absurd hmany (Nat.not_lt_zero _)
  | cons leaf leaves =>
    have hfirst := hwhole _ (mem_browse leaf leaves "" inv s)
    obtain ⟨records, -, rfl⟩ := exists_listed hfirst
    exact pairwise_name_byName records

end Browse

/-- Three controllers are read in two pages, between which one is read by someone else. -/
theorem Inventory.exists_pages_of_browse_controllers :
    let w := World.after {} (["b", "a", "c"].map fun id =>
      .take ⟨.scsiController, .create "" {} id, 0⟩)
    let engine (s : Simulation) (call : Call) : Answer × Simulation := ((s.answer call).1, s)
    let leaves : List Leaf :=
      [⟨2, 0, [⟨.scsiController, { pageSize := 1 }, 1⟩]⟩, ⟨1, 2, []⟩, ⟨5, 3, []⟩, ⟨5, 4, []⟩]
    let visits := w.inventory.browse {} engine .scsiController "" leaves "" w.engine
    ∃ pages : List (Page ScsiController), visits.map (·.result) = pages.map .ok ∧
      (pages.flatMap (·.items)).map (·.name) =
        ["a", "b", "c"].map ("//storage.bridge.dev/scsiControllers/" ++ ·) := by
  intro w engine leaves visits
  let all : List ScsiController := ["a", "b", "c"].map fun id =>
    { name := "//storage.bridge.dev/scsiControllers/" ++ id }
  have hlisted : ((Procedure.ofScript (w.inventory.listed {} .scsiController "")).run engine
      w.engine).result = .ok all := by
    decide +kernel
  have hwhole (v : Visit .scsiController Simulation) (hv : v ∈ visits) :
      v.whole {} engine "" = .ok all := by
    rw [Visit.whole_of_mem_browse (fun _ _ => rfl) hv, hlisted]
    exact congrArg _ (List.mergeSort_of_pairwise (by decide +kernel))
  have hfresh : Fresh leaves w.inventory.cursors := by
    unfold Fresh
    decide +kernel
  obtain ⟨pages, hresults, hpages, -⟩ := Inventory.exists_pages_of_browse leaves w.inventory
    w.engine hwhole (by decide) (by decide) (by decide) hfresh
  exact ⟨pages, hresults, hpages ▸ rfl⟩

end StorageControl
