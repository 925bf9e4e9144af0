import Mathlib
import PrimeOrder.Proofs.Group.Given
import PrimeOrder.Proofs.Group.Simultaneous
import PrimeOrder.Proofs.Window.History

namespace PrimeOrder

open Window.Law

namespace Group

variable {G : Group} {e : Element}

/-- Elements in range are left alone by the neutral element. -/
theorem InRange.identity_mul (he : G.InRange e) : G.mul G.identity e = .ok e := by
  cases G with
  | residues G =>
    obtain ⟨n, rfl, hpos, hlt⟩ := inRange_residue_iff.mp he
    have hproduct : G.mul G.identity ⟨G, n⟩ = ⟨G, n⟩ := by
      rw [ResidueGroup.mul_eq G (by omega), ResidueGroup.identity, one_mul,
        Int.fmod_eq_of_lt hpos.le hlt]
    exact congrArg (fun product => Except.ok (Element.residue product)) hproduct
  | points G =>
    obtain ⟨c, rfl, -⟩ := holds_points_iff.mp he.holds
    rfl

/-- What the value of an element reads as. -/
def readValue {M : Type} [One M] (read : Element → M) : Value → M
  | .element e => read e
  | _ => 1

namespace Exponentiates

variable {M : Type} [CommMonoid M] {member made : Element → Prop} {read : Element → M}
  (hG : G.Exponentiates member made read)
include hG

/-- Products are in normal form, so an element is if the neutral element leaves it alone. -/
theorem made_of_identity_mul (he : member e) (hmul : G.mul G.identity e = .ok e) : made e := by
  have hone := hG.law.member_of_made _ hG.law.made_one
  obtain ⟨product, hproduct, hmade, -⟩ := hG.law.mul_gives _ _ hone he
  obtain rfl : e = product := Except.ok.inj (hmul.symm.trans hproduct)
  exact hmade

theorem copies_gives (he : made e) (n : ℕ) : Gives made read (G.copies e n) (read e ^ n) := by
  induction n with
  | zero => exact ⟨_, rfl, hG.law.made_one, by rw [pow_zero]; exact hG.law.read_one⟩
  | succ n ih =>
    obtain ⟨product, hproduct, hmade, hread⟩ := ih
    rw [copies, hproduct, Outcome.ok_bind, pow_succ, ← hread]
    exact hG.multiply_gives (hG.law.member_of_made _ hmade) (hG.law.member_of_made _ he)

omit hG in
theorem gives_value {outcome : Except Error Element} {m : M} (h : Gives made read outcome m) :
    Gives (fun v => ∃ e, v = .element e ∧ made e) (readValue read) (outcome.map .element) m := by
  obtain ⟨e, rfl, he, hread⟩ := h
  exact ⟨_, rfl, ⟨e, rfl, he⟩, hread⟩

/-- The multiplication that checks its operands computes on values as the other does on elements. -/
theorem checkedLaw : G.checkedLaw.Computes (fun v => ∃ e, v = .element e ∧ made e)
    (fun v => ∃ e, v = .element e ∧ made e) (readValue read) := by
  refine ⟨⟨_, rfl, hG.law.made_one⟩, hG.law.read_one, ?_, fun _ hv => hv⟩
  rintro _ _ ⟨e, rfl, he⟩ ⟨f, rfl, hf⟩
  exact gives_value (hG.multiply_gives (hG.law.member_of_made _ he) (hG.law.member_of_made _ hf))

end Exponentiates

/-- Whatever powers were asked of the tables of a base and in whatever order, their rows hold the
    products of copies of the base that their windows stand for, as many rows as the longest exponent
    needed, and every power is the product of as many copies as the exponent says. -/
theorem tables_record_powers (hG : G.IsProper) (hraises : G.Raises e) (hrange : G.InRange e)
    {width : ℕ} (hwidth : 0 < width) (exponents : List ℤ) :
    ((Window.Table.empty (Value.element e) width).after G.checkedLaw exponents).RecordsPowers
        G.checkedLaw (fun n => (G.copies e n).map .element) width exponents ∧
      ((Window.Table.empty e width).after G.law exponents).RecordsPowers
        G.law (G.copies e) width exponents := by
  obtain ⟨M, _, made, read, hexponentiates⟩ := hG.exists_exponentiates
  have hbase := hexponentiates.made_of_identity_mul hraises hrange.identity_mul
  have hcopies := hexponentiates.copies_gives hbase
  constructor
  · refine Window.Table.recordsPowers_after hexponentiates.checkedLaw ?_ ⟨e, rfl, hbase⟩
      (fun n => Exponentiates.gives_value (hcopies n)) hwidth exponents
    rintro _ _ ⟨f, rfl, hf⟩ ⟨g, rfl, hg⟩ hread
    exact congrArg Value.element (hexponentiates.eq_of_read_eq f g hf hg hread)
  · exact Window.Table.recordsPowers_after hexponentiates.law hexponentiates.eq_of_read_eq hbase
      hcopies hwidth exponents

/-- Five is not a square modulo 23, and one of the exponents is refused. -/
theorem tables_record_powers_modulo23 :
    (residues ResidueGroup.modulo23).Raises (.residue ⟨.modulo23, 5⟩) ∧
      (residues ResidueGroup.modulo23).InRange (.residue ⟨.modulo23, 5⟩) ∧
      ((Window.Table.empty (Value.element (.residue ⟨.modulo23, 5⟩)) 2).after
          (residues ResidueGroup.modulo23).checkedLaw [5, -1, 300, 0]).RecordsPowers
        (residues ResidueGroup.modulo23).checkedLaw
        (fun n => ((residues ResidueGroup.modulo23).copies (.residue ⟨.modulo23, 5⟩) n).map .element)
        2 [5, -1, 300, 0] ∧
      ((Window.Table.empty (Element.residue ⟨.modulo23, 5⟩) 2).after
          (residues ResidueGroup.modulo23).law [5, -1, 300, 0]).RecordsPowers
        (residues ResidueGroup.modulo23).law
        ((residues ResidueGroup.modulo23).copies (.residue ⟨.modulo23, 5⟩)) 2 [5, -1, 300, 0] := by
  have hraises : (residues ResidueGroup.modulo23).Raises (.residue ⟨.modulo23, 5⟩) := by
    simp [Raises, Holds]
  have hrange : (residues ResidueGroup.modulo23).InRange (.residue ⟨.modulo23, 5⟩) :=
    inRange_residue_iff.mpr ⟨5, rfl, by decide, by decide⟩
  exact ⟨hraises, hrange,
    tables_record_powers isProper_residues_modulo23 hraises hrange two_pos [5, -1, 300, 0]⟩

end Group

end PrimeOrder
