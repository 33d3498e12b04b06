import PathTemplate.Text.RangeTable

/-!
# Characters that are passed over when text is drawn

The Unicode property `Default_Ignorable_Code_Point`, version 17: the Hangul fillers, which are
letters that leave nothing on paper, and beside them joiners, selectors of variants, marks of
direction and the code points kept free for more of their kind.
-/

namespace PathTemplate

/-- The characters with the property `Default_Ignorable_Code_Point`. -/
def RangeTable.defaultIgnorable : RangeTable where
  ranges := #[
    (0x00AD, 0x00AD), (0x034F, 0x034F), (0x061C, 0x061C), (0x115F, 0x1160), (0x17B4, 0x17B5),
    (0x180B, 0x180F), (0x200B, 0x200F), (0x202A, 0x202E), (0x2060, 0x206F), (0x3164, 0x3164),
    (0xFE00, 0xFE0F), (0xFEFF, 0xFEFF), (0xFFA0, 0xFFA0), (0xFFF0, 0xFFF8), (0x1BCA0, 0x1BCA3),
    (0x1D173, 0x1D17A), (0xE0000, 0xE0FFF)]

end PathTemplate
