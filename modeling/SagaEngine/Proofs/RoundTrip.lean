import Mathlib.Algebra.Ring.Nat
import Mathlib.Logic.Function.Basic
import SagaEngine.Wire.Decode

/-! What is written is read back: faults, outcomes, run states, operations and messages. Faults have
other spellings as well, by hand or by older writers, and all of them are read as the fault they
spell. -/

namespace SagaEngine

/-! ## Identifiers -/

namespace Json

theorem hexValue_digitChar (d : Fin 16) : hexValue? (Nat.digitChar d) = some d.val := by
  revert d
  decide

theorem length_hexDigits (digits n : Nat) : (hexDigits digits n).length = digits := by
  induction digits generalizing n with
  | zero => rfl
  | succ digits ih => simp [hexDigits, ih]

theorem mem_hexDigits {c : Char} {digits n : Nat} (h : c ∈ hexDigits digits n) :
    ∃ d : Fin 16, c = Nat.digitChar d := by
  induction digits generalizing n with
  | zero => cases h
  | succ digits ih =>
    rcases List.mem_append.1 h with h | h
    · exact ih h
    · exact ⟨⟨n % 16, Nat.mod_lt n (by decide)⟩, List.mem_singleton.1 h⟩

end Json

namespace Uuid

theorem hexNumber_snoc (cs : List Char) (c : Char) :
    hexNumber? (cs ++ [c]) =
      (hexNumber? cs).bind fun n => (Json.hexValue? c).bind fun d => some (n * 16 + d) := by
  unfold hexNumber?
  rw [List.foldl_append]
  rfl

theorem hexNumber_hexDigits (digits n : Nat) :
    hexNumber? (Json.hexDigits digits n) = some (n % 16 ^ digits) := by
  induction digits generalizing n with
  | zero => simp [Json.hexDigits, hexNumber?, Nat.mod_one]
  | succ digits ih =>
    have hlast : Json.hexValue? (n % 16).digitChar = some (n % 16) :=
      Json.hexValue_digitChar ⟨n % 16, Nat.mod_lt n (by decide)⟩
    have hvalue : n / 16 % 16 ^ digits * 16 + n % 16 = n % 16 ^ (digits + 1) := by
      rw [Nat.pow_succ', Nat.mod_mul, Nat.add_comm, Nat.mul_comm]
    rw [Json.hexDigits, hexNumber_snoc, ih, hlast]
    exact congrArg some hvalue

theorem dehyphenate_hyphenate (n : Nat) (ns : List Nat) {cs : List Char}
    (hc : cs.length = (n :: ns).sum) :
    dehyphenate? (n :: ns) (hyphenate (n :: ns) cs) = some cs := by
  induction ns generalizing n cs with
  | nil =>
    have hn : cs.length = n := by simpa using hc
    simp [dehyphenate?, hyphenate, hn, List.take_of_length_le (Nat.le_of_eq hn)]
  | cons m ns ih =>
    rw [List.sum_cons] at hc
    have hlen : (cs.take n).length = n := List.length_take_of_le (by omega)
    have hrest : (cs.drop n).length = (m :: ns).sum := by
      rw [List.length_drop]
      omega
    have hdrop : (hyphenate (n :: m :: ns) cs).drop n = '-' :: hyphenate (m :: ns) (cs.drop n) :=
      List.drop_left' hlen
    have htake : (hyphenate (n :: m :: ns) cs).take n = cs.take n := List.take_left' hlen
    simp only [dehyphenate?, hdrop, ih m hrest, htake, Option.map_some, List.take_append_drop]

theorem length_hyphenate (n : Nat) (ns : List Nat) {cs : List Char}
    (hc : cs.length = (n :: ns).sum) :
    (hyphenate (n :: ns) cs).length = (n :: ns).sum + ns.length := by
  induction ns generalizing n cs with
  | nil =>
    have hn : cs.length = n := by simpa using hc
    simp [hyphenate, hn]
  | cons m ns ih =>
    rw [List.sum_cons] at hc
    have hrest : (cs.drop n).length = (m :: ns).sum := by
      rw [List.length_drop]
      omega
    have hn : min n cs.length = n := Nat.min_eq_left (by omega)
    simp only [hyphenate, List.length_append, List.length_take, List.length_cons, ih m hrest, hn,
      List.sum_cons]
    omega

theorem unwrap_digit (d : Fin 16) (cs : List Char) :
    unwrap (Nat.digitChar d :: cs) = (Nat.digitChar d :: cs, true) := by
  have hurn : (Nat.digitChar d).toLower ≠ 'u' := by
    revert d
    decide
  have hbrace : Nat.digitChar d ≠ '\x7b' := by
    revert d
    decide
  unfold unwrap
  rw [if_neg]
  · split
    · rename_i h _
      exact absurd (List.cons.inj h).1 hbrace
    · rfl
  · intro h
    exact hurn (List.cons.inj h).1

theorem read_text (u : Uuid) : read u.text = .ok u := by
  have hbits : BitVec.ofNat 128 (u.bits.toNat % 16 ^ 32) = u.bits := by
    have hpow : 16 ^ 32 = 2 ^ 128 := by decide
    rw [hpow, Nat.mod_eq_of_lt u.bits.isLt, BitVec.ofNat_toNat, BitVec.setWidth_eq]
  have hdigits : ofDigits? (Json.hexDigits 32 u.bits.toNat) = some u := by
    rw [ofDigits?, hexNumber_hexDigits, Option.map_some, hbits]
  obtain ⟨d, cs, hd⟩ : ∃ d : Fin 16, ∃ cs,
      Json.hexDigits 32 u.bits.toNat = Nat.digitChar d :: cs := by
    rcases hd : Json.hexDigits 32 u.bits.toNat with _ | ⟨c, cs⟩
    · exact absurd (congrArg List.length hd) (by simp [Json.length_hexDigits])
    · obtain ⟨d, rfl⟩ := Json.mem_hexDigits (hd ▸ List.mem_cons_self)
      exact ⟨d, cs, rfl⟩
  have hlen : (Json.hexDigits 32 u.bits.toNat).length = groups.sum := Json.length_hexDigits 32 _
  unfold read text
  rw [hd] at hdigits hlen ⊢
  have hgroups : dehyphenate? groups (hyphenate groups (Nat.digitChar d :: cs)) =
      some (Nat.digitChar d :: cs) := dehyphenate_hyphenate 8 _ hlen
  have hlong : (hyphenate groups (Nat.digitChar d :: cs)).length = 36 := length_hyphenate 8 _ hlen
  have hbare : unwrap (hyphenate groups (Nat.digitChar d :: cs)) =
      (hyphenate groups (Nat.digitChar d :: cs), true) := unwrap_digit d _
  simp [hlong, hbare, hgroups, hdigits]

end Uuid

/-! ## Records and variants -/

/-- The JSON values that spell fault `f`: objects with its fields, and arrays of them. -/
inductive Fault.Spelling (f : Fault) : Json → Prop where
  | object {fs : List (String × Json)} :
      (fs.map Prod.fst).Nodup →
      Table.get? fs "name" = some (.str f.name) →
      (Table.get? fs "message" = some (Json.ofOption f.message) ∨
        f.message = none ∧ Table.get? fs "message" = none) →
      (Table.get? fs "payload" = some f.payload ∨
        f.payload = .null ∧ Table.get? fs "payload" = none) →
      Spelling f (.obj fs)
  | array : Spelling f (.arr [.str f.name, Json.ofOption f.message, f.payload])

theorem Fault.spelling_toJson (f : Fault) : f.Spelling f.toJson := by
  unfold Fault.toJson
  rcases f with ⟨name, _ | m, payload⟩
  · have hnames : ["name", "payload"].Nodup := by decide
    exact .object hnames rfl (.inr ⟨rfl, rfl⟩) (.inl rfl)
  · have hnames : ["message", "name", "payload"].Nodup := by decide
    exact .object hnames rfl (.inl rfl) (.inl rfl)

namespace Wire

theorem optionalString_ofOption (m : Option String) :
    optionalString (Json.ofOption m) = .ok m := by
  cases m <;> rfl

theorem checkFields_ok {check : String → Json → Except Error Unit} {fs : List (String × Json)}
    (h : ∀ k v, (k, v) ∈ fs → check k v = .ok ()) : checkFields check fs = .ok () := by
  induction fs with
  | nil => rfl
  | cons e fs ih =>
    obtain ⟨k, v⟩ := e
    have hhead := h k v List.mem_cons_self
    have htail := ih fun j u hu => h j u (List.mem_cons_of_mem _ hu)
    unfold checkFields
    rw [hhead, htail]
    rfl

theorem fault_spelling {f : Fault} {v : Json} (h : f.Spelling v) : fault v = .ok f := by
  cases h with
  | array =>
    obtain ⟨name, _ | m, payload⟩ := f <;> rfl
  | @object fs hnodup hname hmessage hpayload =>
    have hn : field string fs "name" = .ok f.name := by
      unfold field
      rw [hname]
      rfl
    have hm : fieldOr optionalString fs "message" none = .ok f.message := by
      unfold fieldOr
      rcases hmessage with hm | ⟨hf, hm⟩
      · rw [hm]
        exact optionalString_ofOption f.message
      · rw [hm, hf]
    have hp : fieldOr .ok fs "payload" .null = (.ok f.payload : Except Error Json) := by
      unfold fieldOr
      rcases hpayload with hp | ⟨hf, hp⟩
      · rw [hp]
      · rw [hp, hf]
    unfold fault record
    dsimp only
    rw [checkFields_ok, hn, hm, hp]
    · rfl
    · intro k v hv
      have hget := Table.get?_of_mem hnodup hv
      split
      · rw [hname] at hget
        cases hget
        rfl
      · rcases hmessage with hm | ⟨-, hm⟩
        · rw [hm] at hget
          cases hget
          rw [optionalString_ofOption]
          rfl
        · rw [hm] at hget
          cases hget
      · rfl

theorem fault_toJson (f : Fault) : fault f.toJson = .ok f := fault_spelling f.spelling_toJson

def faultVariants : List (String × (Fault → Outcome)) :=
  [("Killed", .killed), ("Escalated", .escalated), ("Failed", .failed)]

theorem outcome_spelling {f : Fault} {v : Json} (h : f.Spelling v) {name : String}
    {wrap : Fault → Outcome} (hw : (name, wrap) ∈ faultVariants) :
    outcome (.obj [(name, v)]) = .ok (wrap f) := by
  have hmap : outcome (.obj [(name, v)]) = (fault v).map wrap := by
    simp only [faultVariants, List.mem_cons, Prod.mk.injEq, List.not_mem_nil, or_false] at hw
    obtain ⟨rfl, rfl⟩ | ⟨rfl, rfl⟩ | ⟨rfl, rfl⟩ := hw <;> rfl
  rw [hmap, fault_spelling h]
  rfl

theorem outcome_toJson (o : Outcome) : outcome o.toJson = .ok o := by
  cases o with
  | completed => rfl
  | killed f => exact outcome_spelling f.spelling_toJson (by simp [faultVariants])
  | escalated f => exact outcome_spelling f.spelling_toJson (by simp [faultVariants])
  | failed f => exact outcome_spelling f.spelling_toJson (by simp [faultVariants])

theorem runState_toJson (s : RunState) : runState s.toJson = .ok s := by
  cases s <;> rfl

theorem inputOperation_toJson (o : InputOperation) : inputOperation o.toJson = .ok o := rfl

theorem uuid_text (u : Uuid) : uuid (.str u.text) = .ok u := by
  simp only [uuid, Uuid.read_text]

theorem message_toJson (m : Message Uuid) : message m.toJson = .ok m := by
  have hid : field uuid [("id", .str m.id.text), ("operation", .str m.operation),
      ("payload", m.payload)] "id" = .ok m.id := by
    simp only [field, Table.get?, if_true, uuid_text]
  unfold message record Message.toJson
  dsimp only
  rw [checkFields_ok, hid]
  · rfl
  · intro k v hv
    simp only [List.mem_cons, Prod.mk.injEq, List.not_mem_nil, or_false] at hv
    obtain ⟨rfl, rfl⟩ | ⟨rfl, rfl⟩ | ⟨rfl, rfl⟩ := hv
    · rw [uuid_text]
      rfl
    · rfl
    · rfl

theorem injective_of_read {α : Type} {read : Json → Except Error α} {write : α → Json}
    (h : ∀ a, read (write a) = .ok a) : Function.Injective write := by
  intro a b hab
  exact Except.ok.inj ((h a).symm.trans ((congrArg read hab).trans (h b)))

/-- What is written is read back, and a fault is read from each of its spellings. -/
theorem wire_round_trip :
    (∀ f : Fault, fault f.toJson = .ok f) ∧ (∀ o : Outcome, outcome o.toJson = .ok o) ∧
    (∀ s : RunState, runState s.toJson = .ok s) ∧
    (∀ o : InputOperation, inputOperation o.toJson = .ok o) ∧
    (∀ m : Message Uuid, message m.toJson = .ok m) ∧
    (Function.Injective Fault.toJson ∧ Function.Injective Outcome.toJson ∧
      Function.Injective RunState.toJson ∧ Function.Injective InputOperation.toJson ∧
      Function.Injective Message.toJson) ∧
    ∀ (f : Fault) (v : Json), f.Spelling v → fault v = .ok f ∧
      outcome (.obj [("Killed", v)]) = .ok (.killed f) ∧
      outcome (.obj [("Escalated", v)]) = .ok (.escalated f) ∧
      outcome (.obj [("Failed", v)]) = .ok (.failed f) :=
  ⟨fault_toJson, outcome_toJson, runState_toJson, inputOperation_toJson, message_toJson,
    ⟨injective_of_read fault_toJson, injective_of_read outcome_toJson,
      injective_of_read runState_toJson, injective_of_read inputOperation_toJson,
      injective_of_read message_toJson⟩,
    fun _ _ h => ⟨fault_spelling h, outcome_spelling h (by simp [faultVariants]),
      outcome_spelling h (by simp [faultVariants]), outcome_spelling h (by simp [faultVariants])⟩⟩

theorem declined_read :
    outcome (.obj [("Failed", .obj [("message", .null), ("name", .str "Declined"),
      ("severity", .int 3)])]) = .ok (.failed ⟨"Declined", none, .null⟩) := by
  have hnames : ["message", "name", "severity"].Nodup := by decide
  have hspelling : Fault.Spelling ⟨"Declined", none, .null⟩ (.obj [("message", .null),
      ("name", .str "Declined"), ("severity", .int 3)]) :=
    .object hnames rfl (.inl rfl) (.inr ⟨rfl, rfl⟩)
  exact (wire_round_trip.2.2.2.2.2.2 _ _ hspelling).2.2.2

end Wire

end SagaEngine
