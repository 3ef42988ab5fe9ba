/-
# Written values are read back

What is written of a value is one value for a reader, whatever comes after it, and holds no line
break. A value that fits a shape is read under the shape as itself: texts are escaped and digits are
written so that they are found again, the members of an object stand in the order of their keys, and
the reader has room for as many frames as there are lists and objects within one another.
-/
import StorageControl.Proofs.Lexeme

namespace StorageControl

open Text (spell)

/-! ## Entries in order -/

namespace Assoc

variable {α : Type} {l done : List (String × α)}

/-- A key above all others comes last. -/
theorem insert_of_lt {k : String} (v : α) (h : ∀ e ∈ l, e.1 < k) :
    insert k v l = l ++ [(k, v)] := by
  induction l with
  | nil => rfl
  | cons e rest ih =>
    obtain ⟨key, value⟩ := e
    obtain ⟨hkey, hrest⟩ := List.forall_mem_cons.1 h
    have hlt : ¬ k < key := fun hlt => String.lt_irrefl k (String.lt_trans hlt hkey)
    have hne : ¬ k = key := fun heq => String.lt_irrefl k (heq ▸ hkey)
    rw [insert_cons, if_neg hlt, if_neg hne, ih hrest]
    rfl

/-- Entries in order stay as they are when they are put in one after another. -/
theorem ofList_of_ordered (h : Ordered l) : ofList l = l := by
  have hfoldl (l done : List (String × α)) (h : Ordered (done ++ l)) :
      l.foldl (fun done e => insert e.1 e.2 done) done = done ++ l := by
    induction l generalizing done with
    | nil => exact (List.append_nil done).symm
    | cons e l ih =>
      have hlast : insert e.1 e.2 done = done ++ [e] :=
        insert_of_lt e.2 fun d hd => (List.pairwise_append.1 h).2.2 d hd e List.mem_cons_self
      rw [List.foldl_cons, hlast, ih _ (by rwa [List.append_assoc]), List.append_assoc]
      rfl
  exact hfoldl l [] h

end Assoc

namespace Json

/-! ## Values by their parts -/

/-- What holds of a list or an object if it holds of all in it, and of all other values, holds of
every value. -/
theorem induct {P : Json → Prop} (null : P .null) (bool : ∀ b, P (.bool b)) (num : ∀ n, P (.num n))
    (str : ∀ s, P (.str s)) (arr : ∀ items, (∀ v ∈ items, P v) → P (.arr items))
    (obj : ∀ members, (∀ m ∈ members, P m.2) → P (.obj members)) (v : Json) : P v :=
  @Json.rec P (fun items => ∀ v ∈ items, P v) (fun members => ∀ m ∈ members, P m.2)
    (fun m => P m.2) null bool num str arr obj (List.forall_mem_nil _)
    (fun _ _ hv hrest => List.forall_mem_cons.2 ⟨hv, hrest⟩) (List.forall_mem_nil _)
    (fun _ _ hm hrest => List.forall_mem_cons.2 ⟨hm, hrest⟩) (fun _ _ hv => hv) v

/-! ## Line breaks -/

/-- No line break is written of a character. -/
theorem newline_not_mem_escape (c : Char) : 10 ∉ spell (escape c) := by
  unfold escape
  repeat' split
  all_goals try decide
  · rename_i hcontrol
    have hnone : ∀ n < 32, 10 ∉
        spell ['\\', 'u', '0', '0', Text.hexDigit (n / 16), Text.hexDigit (n % 16)] := by decide
    exact hnone _ hcontrol
  · rename_i hquote hslash _ _ _ _ _ hcontrol
    rw [Text.spell_cons, Text.spell_nil, List.append_nil]
    intro hmem
    exact (Reader.plain_of_mem hquote hslash hcontrol 10 hmem).2.2 (by decide)

theorem newline_not_mem_quote (s : String) : 10 ∉ spell (quote s) := by
  have hchars (cs : List Char) : 10 ∉ spell (cs.flatMap escape) := by
    induction cs with
    | nil => exact List.not_mem_nil
    | cons c cs ih =>
      rw [List.flatMap_cons, Text.spell_append, List.mem_append, not_or]
      exact ⟨newline_not_mem_escape c, ih⟩
  rw [quote, Text.spell_cons_of_lt (by decide), Text.spell_append, List.mem_cons, List.mem_append,
    not_or, not_or]
  exact ⟨by decide, hchars _, by decide⟩

/-- A line break is no part of a number. -/
theorem newline_not_mem_number (n : Number) : 10 ∉ spell n.write := by
  have hrest {first last : Reader.NumberPart} {bs : List UInt8}
      (h : bs.foldlM Reader.NumberPart.next? first = some last) : 10 ∉ bs := by
    induction bs generalizing first with
    | nil => exact List.not_mem_nil
    | cons b bs ih =>
      rw [List.foldlM_cons] at h
      obtain ⟨next, hnext, hbs⟩ := Option.bind_eq_some_iff.1 h
      rw [List.mem_cons, not_or]
      refine ⟨?_, ih hbs⟩
      rintro rfl
      cases first <;> cases hnext
  obtain ⟨_, -, b, more, first, hbytes, hb, hmore⟩ := n.exists_reached_write
  rw [hbytes, List.mem_cons, not_or]
  refine ⟨?_, hrest hmore⟩
  rintro rfl
  cases hb

theorem newline_not_mem_items {items : List Json} (h : ∀ v ∈ items, 10 ∉ spell (write v)) :
    10 ∉ spell (writeItems items) := by
  have hmore (items : List Json) (h : ∀ v ∈ items, 10 ∉ spell (write v)) :
      10 ∉ spell (writeMoreItems items) := by
    induction items with
    | nil => exact List.not_mem_nil
    | cons v items ih =>
      obtain ⟨hv, hitems⟩ := List.forall_mem_cons.1 h
      rw [writeMoreItems, Text.spell_cons_of_lt (by decide), Text.spell_append, List.mem_cons,
        List.mem_append, not_or, not_or]
      exact ⟨by decide, hv, ih hitems⟩
  cases items with
  | nil => exact List.not_mem_nil
  | cons v items =>
    obtain ⟨hv, hitems⟩ := List.forall_mem_cons.1 h
    rw [writeItems, Text.spell_append, List.mem_append, not_or]
    exact ⟨hv, hmore items hitems⟩

theorem newline_not_mem_members {members : List (String × Json)}
    (h : ∀ m ∈ members, 10 ∉ spell (write m.2)) : 10 ∉ spell (writeMembers members) := by
  have hmember {k : String} {v : Json} {more : List Char} (hv : 10 ∉ spell (write v))
      (hmore : 10 ∉ spell more) : 10 ∉ spell (quote k ++ ':' :: (write v ++ more)) := by
    rw [Text.spell_append, Text.spell_cons_of_lt (by decide), Text.spell_append, List.mem_append,
      List.mem_cons, List.mem_append, not_or, not_or, not_or]
    exact ⟨newline_not_mem_quote k, by decide, hv, hmore⟩
  have hmore (members : List (String × Json)) (h : ∀ m ∈ members, 10 ∉ spell (write m.2)) :
      10 ∉ spell (writeMoreMembers members) := by
    induction members with
    | nil => exact List.not_mem_nil
    | cons m members ih =>
      obtain ⟨hv, hmembers⟩ := List.forall_mem_cons.1 h
      rw [writeMoreMembers, Text.spell_cons_of_lt (by decide), List.mem_cons, not_or]
      exact ⟨by decide, hmember hv (ih hmembers)⟩
  cases members with
  | nil => exact List.not_mem_nil
  | cons m members =>
    obtain ⟨hv, hmembers⟩ := List.forall_mem_cons.1 h
    rw [writeMembers]
    exact hmember hv (hmore members hmembers)

/-- No line break is written of a value. -/
theorem newline_not_mem_write (v : Json) : 10 ∉ spell (write v) := by
  have hbetween {first last : Char} {cs : List Char} (hfirst : first = '[' ∨ first = '{')
      (hlast : last = ']' ∨ last = '}') (hcs : 10 ∉ spell cs) :
      10 ∉ spell (first :: (cs ++ [last])) := by
    rw [Text.spell_cons, Text.spell_append, List.mem_append, List.mem_append, not_or, not_or]
    refine ⟨?_, hcs, ?_⟩
    · rcases hfirst with rfl | rfl <;> decide
    · rcases hlast with rfl | rfl <;> decide
  induction v using induct with
  | null => decide
  | bool b => cases b <;> decide
  | num n => exact newline_not_mem_number n
  | str s => exact newline_not_mem_quote s
  | arr items ih => exact hbetween (.inl rfl) (.inl rfl) (newline_not_mem_items ih)
  | obj members ih => exact hbetween (.inr rfl) (.inr rfl) (newline_not_mem_members ih)

/-! ## First bytes -/

/-- A written value begins with a byte that begins a value, and only null with that of null. -/
theorem exists_head_write (v : Json) :
    ∃ b more, spell (write v) = b :: more ∧ Reader.isSpace b = false ∧ b ≠ 93 ∧
      (v ≠ .null → b ≠ 110) := by
  have hlexeme {b : UInt8} {l : Reader.Lexeme} (h : Reader.lexeme? b = some l) :
      Reader.isSpace b = false ∧ b ≠ 93 := by
    constructor
    · rw [← Bool.not_eq_true]
      simp only [Reader.isSpace, Bool.or_eq_true, beq_iff_eq]
      rintro (((rfl | rfl) | rfl) | rfl) <;> cases h
    · rintro rfl
      cases h
  cases v with
  | null => exact ⟨110, _, rfl, rfl, by decide, fun h => absurd rfl h⟩
  | bool b => cases b <;> exact ⟨_, _, rfl, rfl, by decide, fun _ => by decide⟩
  | num n =>
    obtain ⟨_, -, b, more, first, hbytes, hb, -⟩ := n.exists_reached_write
    obtain ⟨hspace, hbracket⟩ := hlexeme hb
    refine ⟨b, more, hbytes, hspace, hbracket, fun _ => ?_⟩
    rintro rfl
    cases hb
  | str | arr | obj => exact ⟨_, _, rfl, rfl, by decide, fun _ => by decide⟩

/-! ## Reading one value -/

open Reader

/-- Written, the value `v` is read as `w` where a value of the shape is expected inside of some open
frames, whatever comes after it. -/
def ReadsAs (limit : Nat) (shape : Shape) (v w : Json) (stack : List Frame) : Prop :=
  ∀ rest, Ends rest →
    State.readWithin limit ⟨stack, .value shape⟩ (spell (write v) ++ rest) =
      (deliver w true stack).resume limit rest

variable {limit : Nat} {shape : Shape} {v w : Json} {stack : List Frame} {b : UInt8}
  {rest : List UInt8}

/-- A byte that begins a lexeme begins one for the value. -/
theorem readWithin_lexeme {l : Lexeme} (hnull : ∀ s, shape ≠ .nullable s)
    (hword : ∀ words, shape ≠ .word words) (hvariant : ∀ arms, shape ≠ .variant arms)
    (hb : lexeme? b = some l) (rest : List UInt8) :
    State.readWithin limit ⟨stack, .value shape⟩ (b :: rest) =
      State.readWithin limit ⟨stack, .lexeme l (.value shape)⟩ rest := by
  have hne (c : UInt8) (hc : lexeme? c = none) : b ≠ c := by
    rintro rfl
    rw [hc] at hb
    cases hb
  have hspace : isSpace b = false := by
    simp [isSpace, hne 32 rfl, hne 9 rfl, hne 10 rfl, hne 13 rfl]
  have hstep : State.step ⟨stack, .value shape⟩ b =
      .reading ⟨stack, .lexeme l (.value shape)⟩ := by
    simp only [State.step, stepBetween, hspace, Bool.false_eq_true, if_false]
    rw [begin_eq hnull hword hvariant, if_neg (hne 91 rfl), if_neg (hne 123 rfl), hb]
  exact readWithin_step hstep (Nat.le_refl _) rest

/-- A finished lexeme is taken for a value if it fits the shape. -/
theorem complete_eq_deliver (h : shape.fit v = some w) (used : Bool) :
    complete (.value shape) v used stack = deliver w used stack := by
  simp only [complete, h]

theorem bounded_complete (h : shape.fit v = some w) :
    (complete (.value shape) v true stack).Bounded stack.length := by
  rw [complete_eq_deliver h]
  exact bounded_deliver (Nat.le_refl _)

/-- A word is read byte by byte. -/
theorem readWithin_word {left : List UInt8} (hleft : left ≠ []) (h : shape.fit v = some w)
    (rest : List UInt8) :
    State.readWithin limit ⟨stack, .lexeme (.word left v) (.value shape)⟩ (left ++ rest) =
      (deliver w true stack).resume limit rest := by
  induction left with
  | nil => exact absurd rfl hleft
  | cons c left ih =>
    by_cases hnil : left = []
    · subst hnil
      have hstep : State.step ⟨stack, .lexeme (.word [c] v) (.value shape)⟩ c =
          complete (.value shape) v true stack := by
        simp [State.step]
      rw [List.singleton_append, readWithin_cons (by rw [hstep]; exact bounded_complete h), hstep,
        complete_eq_deliver h]
    · have hstep : State.step ⟨stack, .lexeme (.word (c :: left) v) (.value shape)⟩ c =
          .reading ⟨stack, .lexeme (.word left v) (.value shape)⟩ := by
        simp [State.step, hnil]
      rw [List.cons_append, readWithin_step hstep (Nat.le_refl _)]
      exact ih hnil

/-- A written text is read under a shape that texts fit. -/
theorem readWithin_str {s : String} (h : shape.fit (.str s) = some w) (rest : List UInt8) :
    State.readWithin limit ⟨stack, .lexeme (.text .plain []) (.value shape)⟩
        (spell (s.toList.flatMap escape) ++ 34 :: rest) =
      (deliver w true stack).resume limit rest := by
  -- A text that is passed over is taken for null.
  have hfit : shape.fit ((Purpose.value shape).textOf s) = some w := by
    unfold Purpose.textOf
    split
    · rename_i hpasses
      obtain rfl : shape = .skipped := by
        cases shape <;> first | rfl | cases hpasses
      exact h
    · exact h
  rw [readWithin_quote limit s rest (bounded_complete hfit), complete_eq_deliver hfit]

/-- A number that is passed over, or whole and of 64 bits, is evaluated to itself. -/
theorem endNumber_eq_deliver {m : Number} (h : shape.fit (.num m) = some w)
    (hm : shape = .skipped ∨ ∃ k, m = .whole k ∧ Number.Held k) {done : List UInt8}
    (hdone : done.reverse = spell m.write) (stack : List Frame) :
    endNumber (.value shape) done stack = deliver w false stack := by
  rcases hm with rfl | ⟨k, rfl, hk⟩
  · cases h
    rfl
  · unfold endNumber
    split
    · rename_i hpasses
      obtain rfl : shape = .skipped := by
        cases shape <;> first | rfl | cases hpasses
      cases h
      rfl
    · rw [hdone]
      simp only [Number.write, Number.ofLiteral?_writeInt hk]
      exact complete_eq_deliver h false

/-- What can be read of a value that is neither a list nor an object: numbers only if they are passed
over, or whole and of 64 bits. -/
def Readable (shape : Shape) : Json → Prop
  | .num m => shape = .skipped ∨ ∃ k, m = .whole k ∧ Number.Held k
  | .arr _ | .obj _ => False
  | _ => True

/-- Written, a value that is neither a list nor an object is read as what fitting makes of it. -/
theorem readsAs_of_lexeme (hnull : ∀ s, shape ≠ .nullable s) (hword : ∀ words, shape ≠ .word words)
    (hvariant : ∀ arms, shape ≠ .variant arms) (hv : Readable shape v)
    (h : shape.fit v = some w) : ReadsAs limit shape v w stack := by
  intro rest hrest
  cases v with
  | null =>
    have hb : lexeme? 110 = some (.word [117, 108, 108] .null) := rfl
    exact (readWithin_lexeme hnull hword hvariant hb _).trans
      (readWithin_word (List.cons_ne_nil _ _) h rest)
  | bool b =>
    cases b with
    | true =>
      have hb : lexeme? 116 = some (.word [114, 117, 101] (.bool true)) := rfl
      exact (readWithin_lexeme hnull hword hvariant hb _).trans
        (readWithin_word (List.cons_ne_nil _ _) h rest)
    | false =>
      have hb : lexeme? 102 = some (.word [97, 108, 115, 101] (.bool false)) := rfl
      exact (readWithin_lexeme hnull hword hvariant hb _).trans
        (readWithin_word (List.cons_ne_nil _ _) h rest)
  | num m =>
    obtain ⟨last, hlast, b, more, first, hbytes, hb, hmore⟩ := m.exists_reached_write
    have hdone : (more.reverse ++ [b]).reverse = spell m.write := by
      rw [hbytes, List.reverse_append, List.reverse_reverse]
      rfl
    rw [write, hbytes, List.cons_append, readWithin_lexeme hnull hword hvariant hb,
      readWithin_number hmore, readWithin_number_end hlast (endNumber_eq_deliver h hv hdone) hrest]
  | str s =>
    have hb : lexeme? 34 = some (.text .plain []) := rfl
    rw [write, quote, Text.spell_cons_of_lt (by decide), Text.spell_append, List.cons_append,
      List.append_assoc]
    exact (readWithin_lexeme hnull hword hvariant hb _).trans (readWithin_str h rest)
  | arr | obj => exact hv.elim

/-- A value that is not null is read under a shape that also accepts null. -/
theorem ReadsAs.nullable (h : ReadsAs limit shape v w stack) (hv : v ≠ .null) :
    ReadsAs limit (.nullable shape) v w stack := by
  intro rest hrest
  rw [← h rest hrest]
  obtain ⟨b, more, hbytes, hspace, -, hb⟩ := exists_head_write v
  have hstep (stack : List Frame) :
      State.step ⟨stack, .value (.nullable shape)⟩ b = State.step ⟨stack, .value shape⟩ b := by
    simp only [State.step, stepBetween, hspace, Bool.false_eq_true, if_false, begin, hb hv]
  rw [hbytes, List.cons_append, State.readWithin, State.readWithin, State.stepWithin,
    State.stepWithin, hstep]

/-- The same under any shape. -/
theorem readsAs_of_fit (hv : Readable shape v) (h : shape.fit v = some w) :
    ReadsAs limit shape v w stack := by
  fun_induction Shape.fit shape v with
  | case1 | case2 | case3 | case4 | case5 =>
    exact readsAs_of_lexeme (by simp) (by simp) (by simp) hv h
  | case6 _ _ _ hbounds =>
    refine readsAs_of_lexeme (by simp) (by simp) (by simp) hv ?_
    rw [Shape.fit, if_pos hbounds, h]
  | case7 | case11 | case12 => cases h
  | case8 s =>
    intro rest _
    cases h
    have hnothing : Shape.nothing.fit .null = some .null := rfl
    have hstep : State.step ⟨stack, .value (.nullable s)⟩ 110 =
        .reading ⟨stack, .lexeme (.word [117, 108, 108] .null) (.value .nothing)⟩ := rfl
    exact (readWithin_step hstep (Nat.le_refl _) _).trans
      (readWithin_word (List.cons_ne_nil _ _) hnothing rest)
  | case9 s v hnull ih =>
    refine (ih ?_ h).nullable hnull
    cases v with
    | num m => exact .inr (hv.resolve_left nofun)
    | null | bool | str => trivial
    | arr | obj => exact hv
  | case10 words s hs =>
    intro rest _
    have hfit : (Shape.word words).fit (.str s) = some w := by rw [Shape.fit, if_pos hs, h]
    have hstep : State.step ⟨stack, .value (.word words)⟩ 34 =
        .reading ⟨stack, .lexeme (.text .plain []) (.value (.word words))⟩ := rfl
    rw [write, quote, Text.spell_cons_of_lt (by decide), Text.spell_append, List.cons_append,
      List.append_assoc]
    exact (readWithin_step hstep (Nat.le_refl _) _).trans (readWithin_str hfit rest)

/-! ## Reading the items of a list -/

section

variable (frame : List Json → Frame) {item : Shape} {items : List Json}

/-- The items of a list go into a frame one after the other. -/
theorem readWithin_more_items
    (hitem : ∀ done v more, items = done ++ v :: more → ∀ rest, Ends rest →
      State.readWithin limit ⟨frame done :: stack, .value item⟩ (spell (write v) ++ rest) =
        State.readWithin limit ⟨frame (done ++ [v]) :: stack, .next⟩ rest)
    (hcomma : ∀ done,
      afterComma (frame done :: stack) = .reading ⟨frame done :: stack, .value item⟩)
    (done more : List Json) (h : items = done ++ more) (rest : List UInt8) :
    State.readWithin limit ⟨frame done :: stack, .next⟩
        (spell (writeMoreItems more) ++ 93 :: rest) =
      State.readWithin limit ⟨frame items :: stack, .next⟩ (93 :: rest) := by
  induction more generalizing done with
  | nil =>
    rw [h, List.append_nil]
    rfl
  | cons v more ih =>
    have hstep : State.step ⟨frame done :: stack, .next⟩ 44 =
        .reading ⟨frame done :: stack, .value item⟩ := hcomma done
    have hends : Ends (spell (writeMoreItems more) ++ 93 :: rest) := by
      cases more <;> exact ends_cons (by decide)
    rw [writeMoreItems, Text.spell_cons_of_lt (by decide), Text.spell_append, List.cons_append,
      List.append_assoc, ← ih (done ++ [v]) (by rw [h, List.append_assoc]; rfl)]
    exact (readWithin_step hstep (Nat.le_refl _) _).trans (hitem done v more h _ hends)

/-- Between brackets the items of a list go into a frame, which is closed after them. -/
theorem readWithin_items
    (hitem : ∀ done v more, items = done ++ v :: more → ∀ rest, Ends rest →
      State.readWithin limit ⟨frame done :: stack, .value item⟩ (spell (write v) ++ rest) =
        State.readWithin limit ⟨frame (done ++ [v]) :: stack, .next⟩ rest)
    (hcomma : ∀ done,
      afterComma (frame done :: stack) = .reading ⟨frame done :: stack, .value item⟩)
    (hfirst : ∀ stack b, b ≠ 93 →
      stepFirst (frame [] :: stack) b = begin (frame [] :: stack) item b)
    (hclose : close false (frame items :: stack) = deliver w true stack) (rest : List UInt8) :
    State.readWithin limit ⟨frame [] :: stack, .first⟩ (spell (writeItems items) ++ 93 :: rest) =
      (deliver w true stack).resume limit rest := by
  have hbounded : (deliver w true stack).Bounded (frame items :: stack).length :=
    bounded_deliver (Nat.le_succ _)
  have hend : State.readWithin limit ⟨frame items :: stack, .next⟩ (93 :: rest) =
      (deliver w true stack).resume limit rest := by
    have hstep : State.step ⟨frame items :: stack, .next⟩ 93 = deliver w true stack := hclose
    rw [readWithin_cons (by rw [hstep]; exact hbounded), hstep]
  cases hitems : items with
  | nil =>
    rw [hitems] at hclose hbounded
    have hstep : State.step ⟨frame [] :: stack, .first⟩ 93 = deliver w true stack := hclose
    exact (readWithin_cons (by rw [hstep]; exact hbounded) rest).trans (by rw [hstep])
  | cons v more =>
    have hends : Ends (spell (writeMoreItems more) ++ 93 :: rest) := by
      cases more <;> exact ends_cons (by decide)
    have hread := (hitem [] v more hitems _ hends).trans
      ((readWithin_more_items frame hitem hcomma [v] more hitems rest).trans hend)
    -- The first item begins after the bracket as it would after a comma.
    obtain ⟨b, bs, hbytes, hspace, hbracket, -⟩ := exists_head_write v
    have hstep (stack : List Frame) : State.step ⟨frame [] :: stack, .first⟩ b =
        State.step ⟨frame [] :: stack, .value item⟩ b := by
      simp only [State.step, stepBetween, hspace, Bool.false_eq_true, if_false]
      exact hfirst stack b hbracket
    rw [writeItems, Text.spell_append, List.append_assoc]
    rw [hbytes, List.cons_append] at hread ⊢
    rw [← hread]
    simp only [State.readWithin, State.stepWithin, List.take_succ_cons, hstep]

end

/-! ## Reading the members of an object -/

/-- A member goes into a frame: its key first, and then its value. -/
theorem readWithin_member {before keyed after : Frame} {purpose : Purpose} {key : String}
    (hkey : State.step ⟨before :: stack, .key⟩ 34 =
      .reading ⟨before :: stack, .lexeme (.text .plain []) purpose⟩)
    (hdone : complete purpose (purpose.textOf key) true (before :: stack) =
      .reading ⟨keyed :: stack, .colon⟩)
    (hshape : valueShape (keyed :: stack) = shape)
    (hvalue : ReadsAs limit shape v w (keyed :: stack))
    (hafter : deliver w true (keyed :: stack) = .reading ⟨after :: stack, .next⟩)
    (hrest : Ends rest) :
    State.readWithin limit ⟨before :: stack, .key⟩ (spell (quote key ++ ':' :: write v) ++ rest) =
      State.readWithin limit ⟨after :: stack, .next⟩ rest := by
  have hcolon : State.step ⟨keyed :: stack, .colon⟩ 58 =
      .reading ⟨keyed :: stack, .value shape⟩ := by
    rw [← hshape]
    rfl
  have hread := hvalue rest hrest
  rw [hafter, Progress.resume] at hread
  have hbounded : (complete purpose (purpose.textOf key) true (before :: stack)).Bounded
      (before :: stack).length := by
    rw [hdone]
    exact Nat.le_refl _
  have hquote := readWithin_quote limit key (58 :: (spell (write v) ++ rest)) hbounded
  rw [hdone, Progress.resume, readWithin_step hcolon (Nat.le_refl _), hread] at hquote
  rw [quote, Text.spell_append, Text.spell_cons_of_lt (by decide), Text.spell_append,
    Text.spell_cons_of_lt (by decide), List.cons_append, List.cons_append, List.append_assoc,
    List.append_assoc]
  exact (readWithin_step hkey (Nat.le_refl _) _).trans hquote

section

variable (frame : List (String × Json) → Frame) {members : List (String × Json)}

/-- The members of an object go into a frame one after the other. -/
theorem readWithin_more_members
    (hmember : ∀ done m more, members = done ++ m :: more → ∀ rest, Ends rest →
      State.readWithin limit ⟨frame done :: stack, .key⟩
          (spell (quote m.1 ++ ':' :: write m.2) ++ rest) =
        State.readWithin limit ⟨frame (done ++ [m]) :: stack, .next⟩ rest)
    (hcomma : ∀ done, afterComma (frame done :: stack) = .reading ⟨frame done :: stack, .key⟩)
    (done more : List (String × Json)) (h : members = done ++ more) (rest : List UInt8) :
    State.readWithin limit ⟨frame done :: stack, .next⟩
        (spell (writeMoreMembers more) ++ 125 :: rest) =
      State.readWithin limit ⟨frame members :: stack, .next⟩ (125 :: rest) := by
  induction more generalizing done with
  | nil =>
    rw [h, List.append_nil]
    rfl
  | cons m more ih =>
    have hstep : State.step ⟨frame done :: stack, .next⟩ 44 =
        .reading ⟨frame done :: stack, .key⟩ :=
      hcomma done
    have hends : Ends (spell (writeMoreMembers more) ++ 125 :: rest) := by
      cases more <;> exact ends_cons (by decide)
    have hread := hmember done m more h _ hends
    rw [ih (done ++ [m]) (by rw [h, List.append_assoc]; rfl), ← List.append_assoc,
      ← Text.spell_append, List.append_assoc, List.cons_append] at hread
    rw [writeMoreMembers, Text.spell_cons_of_lt (by decide), List.cons_append]
    exact (readWithin_step hstep (Nat.le_refl _) _).trans hread

/-- Between braces the members of an object go into a frame, which is closed after them. -/
theorem readWithin_members
    (hmember : ∀ done m more, members = done ++ m :: more → ∀ rest, Ends rest →
      State.readWithin limit ⟨frame done :: stack, .key⟩
          (spell (quote m.1 ++ ':' :: write m.2) ++ rest) =
        State.readWithin limit ⟨frame (done ++ [m]) :: stack, .next⟩ rest)
    (hcomma : ∀ done, afterComma (frame done :: stack) = .reading ⟨frame done :: stack, .key⟩)
    (hclose : close true (frame members :: stack) = deliver w true stack) (rest : List UInt8) :
    State.readWithin limit ⟨frame [] :: stack, .firstKey⟩
        (spell (writeMembers members) ++ 125 :: rest) =
      (deliver w true stack).resume limit rest := by
  have hbounded : (deliver w true stack).Bounded (frame members :: stack).length :=
    bounded_deliver (Nat.le_succ _)
  have hend : State.readWithin limit ⟨frame members :: stack, .next⟩ (125 :: rest) =
      (deliver w true stack).resume limit rest := by
    have hstep : State.step ⟨frame members :: stack, .next⟩ 125 = deliver w true stack := hclose
    rw [readWithin_cons (by rw [hstep]; exact hbounded), hstep]
  cases hmembers : members with
  | nil =>
    rw [hmembers] at hclose hbounded
    have hstep : State.step ⟨frame [] :: stack, .firstKey⟩ 125 = deliver w true stack := hclose
    exact (readWithin_cons (by rw [hstep]; exact hbounded) rest).trans (by rw [hstep])
  | cons m more =>
    have hends : Ends (spell (writeMoreMembers more) ++ 125 :: rest) := by
      cases more <;> exact ends_cons (by decide)
    have hread := (hmember [] m more hmembers _ hends).trans
      ((readWithin_more_members frame hmember hcomma [m] more hmembers rest).trans hend)
    rw [← List.append_assoc, ← Text.spell_append, List.append_assoc, List.cons_append] at hread
    exact hread

end

/-- Of the members of an object the one that comes last stays, of two with one key. -/
theorem readsAs_object {members : List (String × Json)} (hlimit : stack.length < limit)
    (h : ∀ m ∈ members, ∀ f : Frame, ReadsAs limit .any m.2 m.2 (f :: stack)) :
    ReadsAs limit .any (.obj members) (.object members) stack := by
  intro rest _
  have hopen : State.step ⟨stack.take 2, .value .any⟩ 123 =
      push (.object [] "") .firstKey (stack.take 2) := rfl
  rw [write, Text.spell_cons_of_lt (by decide), Text.spell_append, List.cons_append,
    List.append_assoc]
  refine (readWithin_push hopen rfl hlimit _).trans (readWithin_members
    (fun done => .object (Assoc.ofList done) (done.getLast?.elim "" (·.1))) ?_ (fun _ => rfl) rfl
    rest)
  intro done m more hmembers rest hrest
  have hm : m ∈ members := hmembers ▸ List.mem_append_right done List.mem_cons_self
  refine readWithin_member rfl rfl rfl (h m hm (.object (Assoc.ofList done) m.1)) ?_ hrest
  rw [deliver, List.getLast?_concat, Assoc.ofList, Assoc.ofList, List.foldl_append]
  rfl

/-! ## Any value is passed over -/

/-- Where a value is passed over, every written value is one, and nothing is made of it. -/
theorem readsAs_skipped (v : Json) (stack : List Frame) : ReadsAs limit .skipped v .null stack := by
  induction v using induct generalizing stack with
  | null | bool | str => exact readsAs_of_fit trivial rfl
  | num => exact readsAs_of_fit (.inl rfl) rfl
  | arr items ih =>
    intro rest _
    rw [write, Text.spell_cons_of_lt (by decide), Text.spell_append, List.cons_append,
      List.append_assoc]
    refine (readWithin_passed rfl rfl _).trans
      (readWithin_items (fun _ => .passedList) ?_ (fun _ => rfl) ?_ rfl rest)
    · intro done v more hitems rest hrest
      have hv : v ∈ items := hitems ▸ List.mem_append_right done List.mem_cons_self
      exact ih v hv _ rest hrest
    · intro stack b hb
      simp only [stepFirst, hb, if_false]
  | obj members ih =>
    intro rest _
    rw [write, Text.spell_cons_of_lt (by decide), Text.spell_append, List.cons_append,
      List.append_assoc]
    refine (readWithin_passed rfl rfl _).trans
      (readWithin_members (fun _ => .passedObject) ?_ (fun _ => rfl) rfl rest)
    intro done m more hmembers rest hrest
    have hm : m ∈ members := hmembers ▸ List.mem_append_right done List.mem_cons_self
    exact readWithin_member rfl rfl rfl (ih m hm _) rfl hrest

/-! ## One key of an object -/

/-- What is made of an object where only one member, if it is there, is of interest, and nothing is
made of its value. -/
def presence (key : String) (members : List (String × Json)) : List (String × Json) :=
  if key ∈ members.map (·.1) then [(key, .null)] else []

/-- A reader tells whether an object has a key. -/
theorem readsAs_presence {members : List (String × Json)} (hlimit : stack.length < limit)
    (hkeys : (members.map (·.1)).Nodup) (key : String) :
    ReadsAs limit (.record [(key, .optional, .skipped)]) (.obj members)
      (.obj (presence key members)) stack := by
  intro rest _
  have hopen : State.step ⟨stack.take 2, .value (.record [(key, .optional, .skipped)])⟩ 123 =
      push (.record [(key, .optional, .skipped)] [] none) .firstKey (stack.take 2) := rfl
  have hclose : close true (.record [(key, .optional, .skipped)] (presence key members) none ::
      stack) = deliver (.obj (presence key members)) true stack := by
    unfold presence
    split <;> rfl
  rw [write, Text.spell_cons_of_lt (by decide), Text.spell_append, List.cons_append,
    List.append_assoc]
  refine (readWithin_push hopen rfl hlimit _).trans (readWithin_members
    (fun done => .record [(key, .optional, .skipped)] (presence key done) none) ?_ (fun _ => rfl)
    hclose rest)
  intro done m more hmembers rest hrest
  by_cases hkey : m.1 = key
  · subst hkey
    have hnew : m.1 ∉ done.map (·.1) := by
      rw [hmembers, List.map_append, List.nodup_append] at hkeys
      exact fun hm => hkeys.2.2 _ hm _ List.mem_cons_self rfl
    have hnone : presence m.1 done = [] := if_neg hnew
    have hlast : presence m.1 (done ++ [m]) = [(m.1, .null)] := if_pos (by simp)
    have hdone : complete .key (Purpose.key.textOf m.1) true
        (.record [(m.1, .optional, .skipped)] [] none :: stack) =
          .reading ⟨.record [(m.1, .optional, .skipped)] [] (some (m.1, .optional, .skipped)) ::
            stack, .colon⟩ := by
      simp [complete, Purpose.textOf, Purpose.passes, deliverKey]
    rw [hnone, hlast]
    exact readWithin_member rfl hdone rfl (readsAs_skipped m.2 _) rfl hrest
  · have hlast : presence key (done ++ [m]) = presence key done := by
      have hmem : key ∈ (done ++ [m]).map (·.1) ↔ key ∈ done.map (·.1) := by
        simp [Ne.symm hkey]
      simp only [presence, hmem]
    have hdone : complete .key (Purpose.key.textOf m.1) true
        (.record [(key, .optional, .skipped)] (presence key done) none :: stack) =
          .reading ⟨.record [(key, .optional, .skipped)] (presence key done) none :: stack,
            .colon⟩ := by
      simp [complete, Purpose.textOf, Purpose.passes, deliverKey, Ne.symm hkey]
    rw [hlast]
    exact readWithin_member rfl hdone rfl (readsAs_skipped m.2 _) rfl hrest

end Json

/-! ## Values that fit a shape -/

open Json Json.Reader

/-- The value fits the shape and has at most so many lists and objects within one another: its whole
numbers have 64 bits and it has no others, the members of its objects stand in the order of their
keys, and a record has all members that it must have and no unknown ones. -/
inductive Shape.Fits : Nat → Shape → Json → Prop
  | plain {n : Nat} {shape : Shape} {v : Json} (hv : Readable shape v)
      (h : shape.fit v = some v) : Fits n shape v
  | nullable {n : Nat} {shape : Shape} {v : Json} (hv : v ≠ .null) (h : Fits n shape v) :
      Fits n (.nullable shape) v
  | list {n : Nat} {shape item : Shape} {items : List Json}
      (hshape : shape = .list item ∨ shape = .any ∧ item = .any)
      (h : ∀ v ∈ items, Fits n item v) : Fits (n + 1) shape (.arr items)
  | object {n : Nat} {members : List (String × Json)} (hordered : Assoc.Ordered members)
      (h : ∀ m ∈ members, Fits n .any m.2) : Fits (n + 1) .any (.obj members)
  | record {n : Nat} {fields : List Field} {members : List (String × Json)}
      (hordered : Assoc.Ordered members)
      (hknown : ∀ m ∈ members, (fields.find? fun f => f.1 == m.1).isSome = true)
      (hcomplete : Field.complete fields (members.map (·.1)) = true)
      (h : ∀ m ∈ members, ∀ f, fields.find? (fun f => f.1 == m.1) = some f → Fits n f.2.2 m.2) :
      Fits (n + 1) (.record fields) (.obj members)
  | variant {n : Nat} {arms : List (String × Shape)} {name : String} {shape : Shape} {v : Json}
      (harm : Assoc.find? name arms = some shape) (h : Fits n shape v) :
      Fits (n + 1) (.variant arms) (.obj [(name, v)])

namespace Shape.Fits

variable {limit n : Nat} {shape : Shape} {v : Json} {stack : List Frame}

/-- With room for a list or an object there is room for its frame, and for what is within it. -/
theorem room_inside (hroom : stack.length + (n + 1) ≤ limit) :
    stack.length < limit ∧ ∀ f : Frame, (f :: stack).length + n ≤ limit := by
  refine ⟨by omega, fun f => ?_⟩
  rw [List.length_cons]
  omega

/-- Written, a value that fits a shape is read as itself, if there is room for what is within it. -/
theorem readsAs (h : Fits n shape v) (hroom : stack.length + n ≤ limit) :
    ReadsAs limit shape v v stack := by
  -- By induction on how the value fits: one case for each kind of frame that is opened for it.
  induction h generalizing stack with
  | plain hv h => exact readsAs_of_fit hv h
  | nullable hv _ ih => exact (ih hroom).nullable hv
  | @list n shape item items hshape _ ih =>
    intro rest _
    have hopen : State.step ⟨stack.take 2, .value shape⟩ 91 =
        push (.list item []) .first (stack.take 2) := by
      rcases hshape with rfl | ⟨rfl, rfl⟩ <;> rfl
    obtain ⟨hlimit, hinner⟩ := room_inside hroom
    rw [write, Text.spell_cons_of_lt (by decide), Text.spell_append, List.cons_append,
      List.append_assoc]
    refine (readWithin_push hopen rfl hlimit _).trans
      (readWithin_items (fun done => .list item done.reverse) ?_ (fun _ => rfl) ?_ ?_ rest)
    · intro done v more hitems rest hrest
      have hv : v ∈ items := hitems ▸ List.mem_append_right done List.mem_cons_self
      rw [ih v hv (hinner _) rest hrest, List.reverse_append]
      rfl
    · intro stack b hb
      simp only [stepFirst, hb, if_false, List.reverse_nil]
    · rw [close, List.reverse_reverse]
      rfl
  | @object n members hordered _ ih =>
    obtain ⟨hlimit, hinner⟩ := room_inside hroom
    have hread := readsAs_object hlimit fun m hm f => ih m hm (hinner f)
    rwa [Json.object, Assoc.ofList_of_ordered hordered] at hread
  | @record n fields members hordered hknown hcomplete _ ih =>
    intro rest _
    have hopen : State.step ⟨stack.take 2, .value (.record fields)⟩ 123 =
        push (.record fields [] none) .firstKey (stack.take 2) := rfl
    obtain ⟨hlimit, hinner⟩ := room_inside hroom
    have hclose : close true (.record fields members.reverse none :: stack) =
        deliver (.obj members) true stack := by
      have hkeys : Field.complete fields (members.reverse.map (·.1)) = true := by
        simpa [Field.complete] using hcomplete
      rw [close, if_neg (by simp), if_pos hkeys, List.reverse_reverse, Json.object,
        Assoc.ofList_of_ordered hordered]
    rw [write, Text.spell_cons_of_lt (by decide), Text.spell_append, List.cons_append,
      List.append_assoc]
    refine (readWithin_push hopen rfl hlimit _).trans (readWithin_members
      (fun done => .record fields done.reverse none) ?_ (fun _ => rfl) hclose rest)
    intro done m more hmembers rest hrest
    have hm : m ∈ members := hmembers ▸ List.mem_append_right done List.mem_cons_self
    obtain ⟨f, hf⟩ := Option.isSome_iff_exists.1 (hknown m hm)
    have hkey : f.1 = m.1 := by simpa using List.find?_some hf
    -- No member before this one has its key.
    have hnew : (done.reverse.any fun e => e.1 == m.1) = false := by
      rw [hmembers] at hordered
      have hlt := (List.pairwise_append.1 hordered).2.2
      simp only [List.any_reverse, List.any_eq_false, beq_iff_eq]
      intro e he heq
      exact String.lt_irrefl m.1 (heq ▸ hlt e he m List.mem_cons_self)
    have hdone : deliverKey m.1 (.record fields done.reverse none :: stack) =
        .reading ⟨.record fields done.reverse (some f) :: stack, .colon⟩ := by
      simp only [deliverKey, hf, hnew, Bool.false_eq_true, if_false]
    refine readWithin_member rfl hdone rfl
      (ih m hm f hf (hinner (.record fields done.reverse (some f)))) ?_ hrest
    rw [deliver, List.reverse_append, hkey]
    rfl
  | @variant n arms name shape v harm _ ih =>
    intro rest _
    have hopen : State.step ⟨stack.take 2, .value (.variant arms)⟩ 123 =
        push (.choice arms false) (.value .text) (stack.take 2) := rfl
    obtain ⟨hlimit, hinner⟩ := room_inside hroom
    -- The name chooses an arm, the value of which comes after a colon.
    have hquote : State.step ⟨.choice arms false :: stack, .value .text⟩ 34 =
        .reading ⟨.choice arms false :: stack, .lexeme (.text .plain []) (.value .text)⟩ := rfl
    have hname (used : Bool) : deliver (.str name) used (.choice arms false :: stack) =
        .reading ⟨.arm name shape false .null :: stack, .colon⟩ := by
      simp only [deliver, harm]
    have hcolon : State.step ⟨.arm name shape false .null :: stack, .colon⟩ 58 =
        .reading ⟨.arm name shape false .null :: stack, .value shape⟩ := rfl
    have hclose : State.step ⟨.arm name shape false v :: stack, .next⟩ 125 =
        deliver (.obj [(name, v)]) true stack := rfl
    have hbounded : (deliver (.obj [(name, v)]) true stack).Bounded (stack.length + 1) :=
      bounded_deliver (Nat.le_succ _)
    have hvalue := ih (hinner (.arm name shape false .null)) (125 :: rest) (ends_cons (by decide))
    have hend : State.readWithin limit ⟨.arm name shape false v :: stack, .next⟩ (125 :: rest) =
        (deliver (.obj [(name, v)]) true stack).resume limit rest := by
      rw [readWithin_cons (by rw [hclose]; exact hbounded), hclose]
    have htext : State.readWithin limit
        ⟨.choice arms false :: stack, .lexeme (.text .plain []) (.value .text)⟩
        (spell (name.toList.flatMap escape) ++ 34 :: 58 :: (spell (write v) ++ 125 :: rest)) =
          State.readWithin limit ⟨.arm name shape false .null :: stack, .colon⟩
            (58 :: (spell (write v) ++ 125 :: rest)) := by
      have hfit : Shape.text.fit (.str name) = some (.str name) := rfl
      rw [readWithin_str hfit, hname, Progress.resume]
    have hbytes : spell (write (.obj [(name, v)])) ++ rest =
        123 :: 34 :: (spell (name.toList.flatMap escape) ++
          34 :: 58 :: (spell (write v) ++ 125 :: rest)) := by
      simp [write, writeMembers, writeMoreMembers, quote, Text.spell_cons_of_lt]
    rw [hbytes]
    exact (readWithin_push hopen rfl hlimit _).trans <|
      (readWithin_step hquote (Nat.le_refl _) _).trans <| htext.trans <|
      (readWithin_step hcolon (Nat.le_refl _) _).trans <| hvalue.trans hend

end Shape.Fits

/-! ## Texts of values -/

namespace Json

variable {limit : Nat} {shape : Shape} {v w : Json}

theorem bytes_print (v : Json) : Text.bytes v.print = spell (write v) := by
  rw [Text.bytes_eq_spell, print, String.toList_ofList]

/-- A value is found at the front of its text, whatever comes after it. -/
theorem ReadsAs.found (h : ReadsAs limit shape v w []) {rest : List UInt8} (hrest : Ends rest) :
    readWithin limit shape (Text.bytes v.print ++ rest) = .found w rest := by
  rw [bytes_print]
  exact h rest hrest

end Json

end StorageControl
