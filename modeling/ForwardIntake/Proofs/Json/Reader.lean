import ForwardIntake.Proofs.Json.Number
import ForwardIntake.Proofs.Json.Text

/-!
# Reading JSON containers and walking over them

The contents of an array or an object are read up to the bracket that closes it, and over all of
them but that bracket a walk stays one bracket further in (`Ends`).  Hence the walk over a container
that lies in another one comes out of it where the reader does (`passes_reader`), and the walk over
a container that lies in no other one ends the message there (`follows_container`).
-/

namespace ForwardIntake

namespace Json

open ForwardIntake.Frame ForwardIntake.Frame.BracketWalk

variable {α : Type} {depth : Nat} {s s' : Nat → BracketWalk} {b : Bytes}

/-! ### Literals -/

/-- The walk passes over the letters of a literal, since none of them is a mark. -/
private theorem passes_literal (v : Value) {letters : Bytes}
    (h : letters.any isMark = false) (b : Bytes) : Passes depth (literal v letters) b := by
  induction letters generalizing b with
  | nil => exact .pure v b
  | cons letter letters ih =>
    rw [List.any_cons, Bool.or_eq_false_iff] at h
    obtain ⟨hletter, hletters⟩ := h
    cases b with
    | nil => exact .of_incomplete rfl
    | cons c rest =>
      by_cases hc : c = letter
      · subst hc
        exact Passes.cons hletter (fun rest' => by rw [literal, if_pos rfl]) (ih hletters rest)
      · exact .fail_behind fun rest' => by rw [literal, if_neg hc]

/-! ### Contents -/

/-- The bytes lead to the bracket that closes a container in which `depth` brackets are open. -/
def Ends (s : Nat → BracketWalk) (depth : Nat) (front : Bytes) : Prop :=
  ∃ inner close, front = inner ++ [close] ∧ (close = 0x7D ∨ close = 0x5D) ∧
    Leads s (outside (depth + 1)) inner

/-- What leads to contents that end leads to their end. -/
private theorem Ends.of_leads {x y : Bytes} (hx : Leads s s' x) (hy : Ends s' depth y) :
    Ends s depth (x ++ y) := by
  obtain ⟨inner, close, rfl, hclose, hinner⟩ := hy
  exact ⟨x ++ inner, close, (List.append_assoc ..).symm, hclose, hx.trans hinner⟩

/-- The closing bracket is one of the bytes. -/
private theorem Ends.ne_nil {front : Bytes} (h : Ends s depth front) : front ≠ [] := by
  obtain ⟨inner, close, rfl, -⟩ := h
  exact List.append_ne_nil_of_right_ne_nil _ (List.cons_ne_nil _ _)

/-- Inside another container the closing bracket is a byte like others. -/
private theorem Ends.leads {front : Bytes} (h : Ends s (depth + 1) front) :
    Leads s (outside (depth + 1)) front := by
  obtain ⟨inner, close, rfl, hclose, hinner⟩ := h
  exact hinner.trans (.single fun _ => step_outside_closing hclose)

/-- Inside no other container the closing bracket is the end of the message. -/
private theorem Ends.advance {front : Bytes} (h : Ends s 0 front) (size pos : Nat) (rest : Bytes) :
    ((s pos).advance size (front ++ rest)).1 = .complete (pos + front.length) := by
  obtain ⟨inner, close, rfl, hclose, hinner⟩ := h
  rw [List.append_assoc, advance_append_of_over? size _ (hinner pos), List.singleton_append,
    BracketWalk.advance, step_outside_closing hclose, List.length_append]
  rfl

/-- The walk keeps up with the way to the next member of a container. -/
structure Continues (depth : Nat) (s : Nat → BracketWalk) (peeks : Bool)
    (next : Bytes → Reading Failure Bool) (b : Bytes) : Prop where
  ends : ∀ {rest : Bytes}, next b = .done false rest →
    ∃ front, b = front ++ rest ∧ Ends (outside (depth + 1)) depth front ∧
      ∀ rest', next (front ++ rest') = .done false rest'
  goes : (∀ rest, next b ≠ .done false rest) →
    Follows (outside (depth + 1)) (Leads (outside (depth + 1)) s) peeks next b

/-- A way to the next member that does not find the closing bracket. -/
private theorem Continues.of_follows {peeks : Bool} {next : Bytes → Reading Failure Bool}
    (hne : ∀ rest, next b ≠ .done false rest)
    (h : Follows (outside (depth + 1)) (Leads (outside (depth + 1)) s) peeks next b) :
    Continues depth s peeks next b :=
  ⟨fun hend => absurd hend (hne _), fun _ => h⟩

/-- The closing bracket comes next. -/
private theorem Continues.of_close {peeks : Bool} {next : Bytes → Reading Failure Bool}
    {close : UInt8} {rest : Bytes} (hclose : close = 0x7D ∨ close = 0x5D)
    (heq : ∀ rest', next (close :: rest') = .done false rest') :
    Continues depth s peeks next (close :: rest) := by
  refine ⟨fun hend => ?_, fun hne => absurd (heq rest) (hne rest)⟩
  rw [heq] at hend
  cases hend
  exact ⟨[close], rfl, ⟨[], close, rfl, hclose, .refl _⟩, heq⟩

/-- Space before the next member. -/
private theorem Continues.space {peeks : Bool} {next : Bytes → Reading Failure Bool}
    (hspace : ∀ b, next (skipSpace b) = next b) (h : Continues depth s peeks next (skipSpace b)) :
    Continues depth s peeks next b := by
  constructor
  · intro rest hend
    rw [← hspace] at hend
    obtain ⟨front, hb, hfront, hsame⟩ := h.ends hend
    refine ⟨b.takeWhile isSpace ++ front, ?_, .of_leads (leads_space _ b) hfront, fun rest' => ?_⟩
    · rw [List.append_assoc, ← hb, takeWhile_append_skipSpace]
    · rw [List.append_assoc, ← hspace, skipSpace_append_of_space fun _ => List.mem_takeWhile_imp,
        hspace, hsame]
  · intro hne
    refine .space hspace (h.goes fun rest hend => hne rest ?_) .trans
    rw [← hspace, hend]

/-- Contents are read up to the closing bracket if their members are. -/
theorem Continues.follows {next : Bytes → Reading Failure Bool} {f k : Bytes → Reading Failure α}
    {v : α} {peeks : Bool} (h : Continues depth s peeks next b)
    (heq : ∀ b, f b = (next b).bind fun more rest => if more then k rest else .done v rest)
    (hk : ∀ rest, next b = .done true rest → Follows s (Ends s depth) false k rest) :
    Follows (outside (depth + 1)) (Ends (outside (depth + 1)) depth) false f b := by
  -- the closing bracket comes next, or another member
  by_cases hend : ∃ rest, next b = .done false rest
  · obtain ⟨rest, hend⟩ := hend
    obtain ⟨front, rfl, hfront, hsame⟩ := h.ends hend
    have hdone : ∀ rest', f (front ++ rest') = .done v rest' := by
      intro rest'
      rw [heq, hsame, Reading.bind_done, if_neg Bool.false_ne_true]
    constructor
    · intro w unread hw
      rw [hdone] at hw
      cases hw
      exact ⟨front, rfl, hfront, fun rest' _ => hdone rest'⟩
    · intro failure hfailed
      rw [hdone] at hfailed
      cases hfailed
  · obtain rfl : f = fun b =>
        (next b).bind fun more rest => if more then k rest else .done v rest := funext heq
    have hgoes := h.goes fun rest hrest => hend ⟨rest, hrest⟩
    refine .bind hgoes (fun more rest hmore => ?_) Ends.of_leads fun _ => .inr fun _ => Ends.ne_nil
    cases more with
    | false => exact absurd ⟨rest, hmore⟩ hend
    | true => exact hk rest hmore

/-! ### Arrays -/

/-- Space is skipped at once. -/
@[simp] theorem skipSpace_skipSpace (b : Bytes) : skipSpace (skipSpace b) = skipSpace b := by
  cases h : skipSpace b with
  | nil => rfl
  | cons c rest => exact skipSpace_cons (isSpace_of_skipSpace_eq_cons h) rest

@[simp] theorem nextElement_skipSpace (first : Bool) (b : Bytes) :
    nextElement first (skipSpace b) = nextElement first b := by
  rw [nextElement, nextElement, skipSpace_skipSpace]

/-- Goes to the next element from behind the comma before it. -/
def elementBehindComma (b : Bytes) : Reading Failure Bool :=
  match skipSpace b with
  | [] => .incomplete
  | d :: unread => if d = 0x5D then fail .trailingComma unread else .done true (d :: unread)

/-- The way to the next element, from the first byte that is no space. -/
theorem nextElement_cons {c : UInt8} (h : isSpace c = false) (first : Bool) (rest : Bytes) :
    nextElement first (c :: rest) =
      if c = 0x5D then .done false rest
      else if first then .done true (c :: rest)
      else if c = 0x2C then elementBehindComma rest
      else fail .expectedListCommaOrEnd rest := by
  rw [nextElement, skipSpace_cons h]
  rfl

@[simp] theorem elementBehindComma_skipSpace (b : Bytes) :
    elementBehindComma (skipSpace b) = elementBehindComma b := by
  rw [elementBehindComma, elementBehindComma, skipSpace_skipSpace]

/-- What may follow a comma, from the first byte that is no space. -/
theorem elementBehindComma_cons {d : UInt8} (h : isSpace d = false) (unread : Bytes) :
    elementBehindComma (d :: unread) =
      if d = 0x5D then fail .trailingComma unread else .done true (d :: unread) := by
  rw [elementBehindComma, skipSpace_cons h]

/-- The walk passes over the space behind a comma. -/
private theorem passes_elementBehindComma (b : Bytes) : Passes depth elementBehindComma b := by
  refine .space elementBehindComma_skipSpace ?_ .trans
  cases h : skipSpace b with
  | nil => exact .of_incomplete rfl
  | cons d unread =>
    have hcons := elementBehindComma_cons (isSpace_of_skipSpace_eq_cons h)
    by_cases hclose : d = 0x5D
    · exact .fail_behind fun rest' => by rw [hcons, if_pos hclose]
    · exact .of_head (fun rest' => by rw [hcons, if_neg hclose]) (.pure true _)

/-- Behind a comma an array does not end. -/
private theorem elementBehindComma_ne_done_false (b rest : Bytes) :
    elementBehindComma b ≠ .done false rest := by
  rw [elementBehindComma]
  split
  · simp
  · split <;> simp

/-- The walk keeps up with the way to the next element. -/
theorem continues_nextElement (first : Bool) (b : Bytes) :
    Continues depth (outside (depth + 1)) true (nextElement first) b := by
  refine .space (nextElement_skipSpace first) ?_
  cases h : skipSpace b with
  | nil => exact .of_follows nofun (.of_incomplete rfl)
  | cons c rest =>
    have hcons := nextElement_cons (isSpace_of_skipSpace_eq_cons h) first
    by_cases hclose : c = 0x5D
    · exact .of_close (.inr hclose) fun rest' => by rw [hcons, if_pos hclose]
    cases first with
    | true =>
      have hdone : ∀ rest', nextElement true (c :: rest') = .done true (c :: rest') := by
        intro rest'
        rw [hcons, if_neg hclose, if_pos rfl]
      exact .of_follows (by rw [hdone]; exact nofun) (.of_head hdone (.pure true _))
    | false =>
      by_cases hcomma : c = 0x2C
      · have hnext : ∀ rest', nextElement false (c :: rest') = elementBehindComma rest' :=
          fun rest' => by rw [hcons, if_neg hclose, if_neg Bool.false_ne_true, if_pos hcomma]
        refine .of_follows ?_ (Passes.cons (hcomma ▸ rfl) hnext (passes_elementBehindComma rest))
        rw [hnext]
        exact elementBehindComma_ne_done_false rest
      · have hfail : ∀ rest', nextElement false (c :: rest') =
            fail .expectedListCommaOrEnd rest' := fun rest' => by
          rw [hcons, if_neg hclose, if_neg Bool.false_ne_true, if_neg hcomma]
        exact .of_follows (by rw [hfail]; exact nofun) (.fail_behind hfail)

/-- The elements of an array, one behind the other. -/
theorem elements_eq (item : Reader Failure Value) (first : Bool) (acc : List Value) (b : Bytes) :
    elements item first acc b = (nextElement first b).bind fun more rest =>
      if more then (item.run rest).bind fun value after => elements item false (value :: acc) after
      else .done acc.reverse rest := by
  rw [elements]
  split
  · rename_i h
    simp only [h, Reading.bind_incomplete]
  · rename_i failure h
    simp only [h, Reading.bind_failed]
  · rename_i rest h
    simp only [h, Reading.bind_done, Bool.false_eq_true, if_false]
  · rename_i rest h
    simp only [h, Reading.bind_done, if_true]
    split
    · rename_i h'
      simp only [h', Reading.bind_incomplete]
    · rename_i failure h'
      simp only [h', Reading.bind_failed]
    · rename_i value after h'
      simp only [h', Reading.bind_done]

/-- The elements of an array are read up to its closing bracket. -/
private theorem follows_elements {item : Reader Failure Value}
    (hitem : ∀ b, Passes (depth + 1) item.run b) (first : Bool) (acc : List Value) (b : Bytes) :
    Follows (outside (depth + 1)) (Ends (outside (depth + 1)) depth) false
      (elements item first acc) b := by
  refine (continues_nextElement first b).follows (elements_eq item first acc) fun rest hnext => ?_
  refine .bind (hitem rest) (fun value after hvalue => ?_) .of_leads
    fun _ => .inr fun _ => Ends.ne_nil
  have hlt : after.length < b.length :=
    Nat.lt_of_lt_of_le (item.progress hvalue) (length_le_of_nextElement hnext)
  exact follows_elements hitem false (value :: acc) after
termination_by b.length

/-! ### Objects -/

@[simp] theorem nextKey_skipSpace (first : Bool) (b : Bytes) :
    nextKey first (skipSpace b) = nextKey first b := by
  rw [nextKey, nextKey, skipSpace_skipSpace]

/-- Goes behind the opening quote of the next key from behind the comma before it. -/
def keyBehindComma (b : Bytes) : Reading Failure Bool :=
  match skipSpace b with
  | [] => .incomplete
  | d :: unread =>
    if d = 0x22 then .done true unread
    else if d = 0x7D then fail .trailingComma unread
    else fail .keyNotString unread

/-- The way to the next key, from the first byte that is no space. -/
theorem nextKey_cons {c : UInt8} (h : isSpace c = false) (first : Bool) (rest : Bytes) :
    nextKey first (c :: rest) =
      if c = 0x7D then .done false rest
      else if first then if c = 0x22 then .done true rest else fail .keyNotString rest
      else if c = 0x2C then keyBehindComma rest
      else fail .expectedObjectCommaOrEnd rest := by
  rw [nextKey, skipSpace_cons h]
  rfl

@[simp] theorem keyBehindComma_skipSpace (b : Bytes) :
    keyBehindComma (skipSpace b) = keyBehindComma b := by
  rw [keyBehindComma, keyBehindComma, skipSpace_skipSpace]

/-- What may follow a comma, from the first byte that is no space. -/
theorem keyBehindComma_cons {d : UInt8} (h : isSpace d = false) (unread : Bytes) :
    keyBehindComma (d :: unread) =
      if d = 0x22 then .done true unread
      else if d = 0x7D then fail .trailingComma unread
      else fail .keyNotString unread := by
  rw [keyBehindComma, skipSpace_cons h]

/-- The walk is inside the key behind the quote that opens it. -/
private theorem follows_keyBehindComma (b : Bytes) :
    Follows (outside depth) (Leads (outside depth) (inside depth)) false keyBehindComma b := by
  refine .space keyBehindComma_skipSpace ?_ .trans
  cases h : skipSpace b with
  | nil => exact .of_incomplete rfl
  | cons d unread =>
    have hcons := keyBehindComma_cons (isSpace_of_skipSpace_eq_cons h)
    by_cases hquote : d = 0x22
    · subst hquote
      exact .cons (fun _ => step_outside_quote) (fun rest' => by rw [hcons, if_pos rfl])
        (.pure true unread) (Leads.cons fun _ => step_outside_quote)
    by_cases hclose : d = 0x7D
    · exact .fail_behind fun rest' => by rw [hcons, if_neg hquote, if_pos hclose]
    · exact .fail_behind fun rest' => by rw [hcons, if_neg hquote, if_neg hclose]

/-- Behind a comma an object does not end. -/
private theorem keyBehindComma_ne_done_false (b rest : Bytes) :
    keyBehindComma b ≠ .done false rest := by
  rw [keyBehindComma]
  split
  · simp
  · split
    · simp
    · split <;> simp

/-- The walk keeps up with the way to the next key. -/
theorem continues_nextKey (first : Bool) (b : Bytes) :
    Continues depth (inside (depth + 1)) false (nextKey first) b := by
  refine .space (nextKey_skipSpace first) ?_
  cases h : skipSpace b with
  | nil => exact .of_follows nofun (.of_incomplete rfl)
  | cons c rest =>
    have hcons := nextKey_cons (isSpace_of_skipSpace_eq_cons h) first
    by_cases hclose : c = 0x7D
    · exact .of_close (.inl hclose) fun rest' => by rw [hcons, if_pos hclose]
    cases first with
    | true =>
      by_cases hquote : c = 0x22
      · subst hquote
        have hdone : ∀ rest', nextKey true (0x22 :: rest') = .done true rest' := fun rest' => by
          rw [hcons, if_neg hclose, if_pos rfl, if_pos rfl]
        exact .of_follows (by rw [hdone]; exact nofun)
          (.cons (fun _ => step_outside_quote) hdone (.pure true rest)
            (Leads.cons fun _ => step_outside_quote))
      · have hfail : ∀ rest', nextKey true (c :: rest') = fail .keyNotString rest' := by
          intro rest'
          rw [hcons, if_neg hclose, if_pos rfl, if_neg hquote]
        exact .of_follows (by rw [hfail]; exact nofun) (.fail_behind hfail)
    | false =>
      by_cases hcomma : c = 0x2C
      · subst hcomma
        have hnext : ∀ rest', nextKey false (0x2C :: rest') = keyBehindComma rest' :=
          fun rest' => by rw [hcons, if_neg hclose, if_neg Bool.false_ne_true, if_pos rfl]
        refine .of_follows ?_ (.cons (fun _ => step_outside_of_not_mark rfl) hnext
          (follows_keyBehindComma rest) (Leads.cons fun _ => step_outside_of_not_mark rfl))
        rw [hnext]
        exact keyBehindComma_ne_done_false rest
      · have hfail : ∀ rest', nextKey false (c :: rest') =
            fail .expectedObjectCommaOrEnd rest' := fun rest' => by
          rw [hcons, if_neg hclose, if_neg Bool.false_ne_true, if_neg hcomma]
        exact .of_follows (by rw [hfail]; exact nofun) (.fail_behind hfail)

@[simp] theorem colon_skipSpace (b : Bytes) : colon (skipSpace b) = colon b := by
  rw [colon, colon, skipSpace_skipSpace]

/-- What may follow a key, from the first byte that is no space. -/
theorem colon_cons {c : UInt8} (h : isSpace c = false) (rest : Bytes) :
    colon (c :: rest) = if c = 0x3A then .done () rest else fail .expectedColon rest := by
  rw [colon, skipSpace_cons h]

theorem follows_colon (b : Bytes) :
    Follows (outside depth) (Leads (outside depth) (outside depth)) false colon b := by
  refine .space colon_skipSpace ?_ .trans
  cases h : skipSpace b with
  | nil => exact .of_incomplete rfl
  | cons c rest =>
    have hcons := colon_cons (isSpace_of_skipSpace_eq_cons h)
    by_cases hcolon : c = 0x3A
    · subst hcolon
      exact .cons (fun _ => step_outside_of_not_mark rfl) (fun rest' => by rw [hcons, if_pos rfl])
        (.pure () rest) (Leads.cons fun _ => step_outside_of_not_mark rfl)
    · exact .fail_behind fun rest' => by rw [hcons, if_neg hcolon]

/-- The walk leaves a field where its value ends, outside of strings. -/
theorem follows_field {item : Reader Failure Value} (hitem : ∀ b, Passes depth item.run b)
    (b : Bytes) :
    Follows (inside depth) (Leads (inside depth) (outside depth)) true (field item) b := by
  refine .bind (follows_string b) (fun key rest _ => ?_) .trans nofun
  refine .bind (follows_colon rest) (fun _ rest _ => ?_) .trans nofun
  exact (hitem rest).map

/-- The fields of an object, one behind the other. -/
theorem fields_eq (item : Reader Failure Value) (first : Bool) (acc : Fields) (b : Bytes) :
    fields item first acc b = (nextKey first b).bind fun more rest =>
      if more then (field item rest).bind fun p after =>
        fields item false (acc.insert p.1 p.2) after
      else .done acc rest := by
  rw [fields]
  split
  · rename_i h
    simp only [h, Reading.bind_incomplete]
  · rename_i failure h
    simp only [h, Reading.bind_failed]
  · rename_i rest h
    simp only [h, Reading.bind_done, Bool.false_eq_true, if_false]
  · rename_i rest h
    simp only [h, Reading.bind_done, if_true]
    split
    · rename_i h'
      simp only [h', Reading.bind_incomplete]
    · rename_i failure h'
      simp only [h', Reading.bind_failed]
    · rename_i key value after h'
      simp only [h', Reading.bind_done]

/-- The fields of an object are read up to its closing brace. -/
private theorem follows_fields {item : Reader Failure Value}
    (hitem : ∀ b, Passes (depth + 1) item.run b) (first : Bool) (acc : Fields) (b : Bytes) :
    Follows (outside (depth + 1)) (Ends (outside (depth + 1)) depth) false
      (fields item first acc) b := by
  refine (continues_nextKey first b).follows (fields_eq item first acc) fun rest hnext => ?_
  refine .bind (follows_field hitem rest) (fun p after hfield => ?_) .of_leads
    fun _ => .inr fun _ => Ends.ne_nil
  have hlt : after.length < b.length :=
    Nat.lt_of_lt_of_le (length_lt_of_field hfield) (length_le_of_nextKey hnext)
  exact follows_fields hitem false (acc.insert p.1 p.2) after
termination_by b.length

/-! ### Values -/

/-- The bytes that open a container. -/
def isOpening (c : UInt8) : Prop :=
  c = 0x7B ∨ c = 0x5B

/-- A bracket is no space. -/
private theorem isSpace_of_isOpening {c : UInt8} (h : isOpening c) : isSpace c = false := by
  rcases h with rfl | rfl <;> rfl

/-- A quote begins a text. -/
theorem value_text (inner : Option (Reader Failure Value)) (rest : Bytes) :
    value inner (0x22 :: rest) = (string rest).map .text := by
  rw [value, skipSpace_cons (by decide)]
  rfl

/-- A brace begins an object, as long as there is room for another container. -/
theorem value_map (item : Reader Failure Value) (rest : Bytes) :
    value (some item) (0x7B :: rest) = (fields item true [] rest).map .map := by
  rw [value, skipSpace_cons (by decide)]
  rfl

/-- A bracket begins an array, as long as there is room for another container. -/
theorem value_array (item : Reader Failure Value) (rest : Bytes) :
    value (some item) (0x5B :: rest) = (elements item true [] rest).map .array := by
  rw [value, skipSpace_cons (by decide)]
  rfl

/-- Without room for another container its bracket is refused. -/
theorem value_tooDeep {c : UInt8} (h : isOpening c) (rest : Bytes) :
    value none (c :: rest) = fail .tooDeep rest := by
  rw [value, skipSpace_cons (isSpace_of_isOpening h)]
  rcases h with rfl | rfl <;> rfl

/-- Reads a value that is neither a string nor a container. -/
def scalar (c : UInt8) (rest : Bytes) : Reading Failure Value :=
  if c = 0x2D then number true rest
  else if isDigit c then number false (c :: rest)
  else if c = 0x6E then literal .nil [0x75, 0x6C, 0x6C] rest
  else if c = 0x74 then literal (.bool true) [0x72, 0x75, 0x65] rest
  else if c = 0x66 then literal (.bool false) [0x61, 0x6C, 0x73, 0x65] rest
  else fail .expectedValue rest

/-- Any other byte begins a number or a literal. -/
theorem value_scalar (inner : Option (Reader Failure Value)) {c : UInt8}
    (hspace : isSpace c = false) (hquote : c ≠ 0x22) (hopening : ¬isOpening c) (rest : Bytes) :
    value inner (c :: rest) = scalar c rest := by
  obtain ⟨hbrace, hbracket⟩ := not_or.1 hopening
  rw [value, skipSpace_cons hspace]
  simp only [if_neg hquote, if_neg hbrace, if_neg hbracket, scalar]

/-- A container is read up to the bracket that closes it. -/
private theorem follows_container {item : Reader Failure Value}
    (hitem : ∀ b, Passes (depth + 1) item.run b) {c : UInt8} (hc : isOpening c) (rest : Bytes) :
    Follows (outside depth) (Ends (outside depth) depth) false (value (some item)) (c :: rest) := by
  have hstep : ∀ pos, (outside depth pos).step c = (outside (depth + 1) (pos + 1), false) :=
    fun _ => step_outside_opening hc
  rcases hc with rfl | rfl
  · exact .cons hstep (value_map item) (follows_fields hitem true [] rest).map
      (Ends.of_leads (.single hstep))
  · exact .cons hstep (value_array item) (follows_elements hitem true [] rest).map
      (Ends.of_leads (.single hstep))

@[simp] theorem value_skipSpace (inner : Option (Reader Failure Value)) (b : Bytes) :
    value inner (skipSpace b) = value inner b := by
  rw [value, value, skipSpace_skipSpace]

/-- The walk passes over numbers and literals. -/
private theorem passes_scalar (c : UInt8) (rest : Bytes) {f : Bytes → Reading Failure Value}
    (heq : ∀ rest', f (c :: rest') = scalar c rest') : Passes depth f (c :: rest) := by
  simp only [scalar] at heq
  by_cases hminus : c = 0x2D
  · exact Passes.cons (hminus ▸ rfl) (fun rest' => by rw [heq, if_pos hminus])
      (passes_number true)
  simp only [if_neg hminus] at heq
  by_cases hdigit : isDigit c = true
  · exact .of_head (fun rest' => by rw [heq, if_pos hdigit]) (passes_number false)
  simp only [if_neg hdigit] at heq
  by_cases hnull : c = 0x6E
  · exact Passes.cons (hnull ▸ rfl) (fun rest' => by rw [heq, if_pos hnull])
      (passes_literal _ rfl rest)
  simp only [if_neg hnull] at heq
  by_cases htrue : c = 0x74
  · exact Passes.cons (htrue ▸ rfl) (fun rest' => by rw [heq, if_pos htrue])
      (passes_literal _ rfl rest)
  simp only [if_neg htrue] at heq
  by_cases hfalse : c = 0x66
  · exact Passes.cons (hfalse ▸ rfl) (fun rest' => by rw [heq, if_pos hfalse])
      (passes_literal _ rfl rest)
  · exact .fail_behind fun rest' => by rw [heq, if_neg hfalse]

/-- The walk passes over a value if it does so over the values inside. -/
private theorem passes_value {inner : Option (Reader Failure Value)}
    (hinner : ∀ item ∈ inner, ∀ b, Passes (depth + 2) item.run b) (b : Bytes) :
    Passes (depth + 1) (value inner) b := by
  refine .space (value_skipSpace inner) ?_ .trans
  cases h : skipSpace b with
  | nil => exact .of_incomplete rfl
  | cons c rest =>
    have hspace := isSpace_of_skipSpace_eq_cons h
    by_cases hopening : isOpening c
    · cases inner with
      | some item =>
        exact (follows_container (hinner item rfl) hopening rest).mono Ends.leads
      | none => exact .fail_behind (value_tooDeep hopening)
    by_cases hquote : c = 0x22
    · subst hquote
      exact (Follows.cons (fun _ => step_outside_quote) (value_text inner)
        (follows_string rest).map (Leads.cons fun _ => step_outside_quote)).mono id
    · exact passes_scalar c rest (value_scalar inner hspace hquote hopening)

/-- **The walk keeps up with the reader of values**, however deep they lie. -/
theorem passes_reader (room depth : Nat) (b : Bytes) : Passes (depth + 1) (reader room).run b := by
  induction room generalizing depth b with
  | zero =>
    have hinner : ∀ item ∈ (none : Option (Reader Failure Value)), ∀ b,
        Passes (depth + 2) item.run b := nofun
    exact passes_value hinner b
  | succ room ih =>
    have hinner : ∀ item ∈ some (reader room), ∀ b, Passes (depth + 2) item.run b := by
      rintro item ⟨⟩ b
      exact ih (depth + 1) b
    exact passes_value hinner b

/-! ### Messages -/

/-- **The walk over a container ends the message where the reader ends it**, and what follows has no
influence on the reader. -/
theorem read_eq_done {c : UInt8} (hc : isOpening c) {rest after : Bytes} {v : Value}
    (h : read (c :: rest) = .done v after) :
    ∃ front, c :: rest = front ++ after ∧
      (∀ size pos more, ((outside 0 pos).advance size (front ++ more)).1 =
        .complete (pos + front.length)) ∧
      ∀ more, read (front ++ more) = .done v more := by
  have hfollows := follows_container (passes_reader (maxDepth - 1) 0) hc rest
  obtain ⟨front, hb, hfront, hsame⟩ := hfollows.done (Reading.mapError_eq_done_iff.1 h)
  refine ⟨front, hb, fun size pos more => hfront.advance size pos more, fun more => ?_⟩
  exact Reading.mapError_eq_done_iff.2 (hsame more nofun)

/-- A container that is refused is refused for the same reason however the bytes go on, or the walk
does not come to its end. -/
theorem read_eq_failed {c : UInt8} (hc : isOpening c) {rest : Bytes} {e : Error}
    (h : read (c :: rest) = .failed e) :
    (∀ more, read (c :: rest ++ more) = .failed e) ∨ Open (outside 0) (c :: rest) := by
  rw [read] at h
  obtain ⟨failure, hrun, rfl⟩ := Reading.mapError_eq_failed_iff.1 h
  refine ((follows_container (passes_reader (maxDepth - 1) 0) hc rest).failed hrun).imp_left ?_
  intro hsame more
  have hmore : (reader maxDepth).run (c :: rest ++ more) = .failed (failure.extend more) :=
    hsame more
  rw [read, hmore, Reading.mapError_failed, Failure.locate_extend]

end Json

end ForwardIntake
