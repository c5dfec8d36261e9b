import RunExchange.Text.Utf8
/-!
# Text.ByteOrder -- texts in the order of their bytes

Names are listed in the order of their UTF-8 bytes.  The order is decidable,
irreflexive and transitive, and two texts with the same bytes are one text
(`utf8_inj`), so any two different texts are comparable (`lt_or_gt_of_ne`).
-/

namespace RunExchange.Text

set_option autoImplicit false

/-- `a` stands before `b`, comparing byte by byte. -/
def ByteLt (a b : String) : Prop :=
  utf8 a < utf8 b

instance (a b : String) : Decidable (ByteLt a b) :=
  inferInstanceAs (Decidable (utf8 a < utf8 b))

theorem not_byteLt_self (a : String) : ¬ ByteLt a a :=
  List.lt_irrefl (utf8 a)

theorem ByteLt.trans {a b c : String} (hab : ByteLt a b) (hbc : ByteLt b c) : ByteLt a c :=
  List.lt_trans hab hbc

theorem byteLt_or_byteLt_of_ne {a b : String} (h : a ≠ b) : ByteLt a b ∨ ByteLt b a := by
  by_cases hab : ByteLt a b
  · exact .inl hab
  · refine .inr (Classical.byContradiction fun hba => h (utf8_inj ?_))
    exact List.le_antisymm (List.not_lt.1 hba) (List.not_lt.1 hab)

end RunExchange.Text
