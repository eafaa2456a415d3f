import RemotePyMite.Text.CharSet

/-! # Letters that join

Sets of letters that take part in ligatures.
-/
namespace RemotePyMite.Width

def alefs : CharSet := ⟨[
  (0x0622, 0x0623), (0x0625, 0x0625), (0x0627, 0x0627), (0x0671, 0x0673), (0x0675, 0x0675),
  (0x0773, 0x0774), (0x0870, 0x0882)]⟩

def lams : CharSet := ⟨[
  (0x0644, 0x0644), (0x06B5, 0x06B8), (0x076A, 0x076A), (0x08A6, 0x08A6), (0x08C7, 0x08C7)]⟩

/-- The Khmer letters that are written below another one behind the sign for it. -/
def subscripts : CharSet := ⟨[
  (0x1780, 0x1782), (0x1784, 0x1787), (0x1789, 0x178C), (0x178E, 0x1793), (0x1795, 0x1798),
  (0x179B, 0x179D), (0x17A0, 0x17A0), (0x17A2, 0x17A2), (0x17A7, 0x17A7), (0x17AB, 0x17AC),
  (0x17AF, 0x17AF)]⟩

def consonants : CharSet := ⟨[
  (0x2D31, 0x2D65), (0x2D6F, 0x2D6F)]⟩

/-- The Lisu tone letters that another one behind them joins. -/
def toneLetters : CharSet := ⟨[
  (0xA4F8, 0xA4FB)]⟩

/-- The Lisu tone letters that join the one in front of them. -/
def lastToneLetters : CharSet := ⟨[
  (0xA4FC, 0xA4FD)]⟩

/-- The quotation marks that a selector makes wide. -/
def quotationMarks : CharSet := ⟨[
  (0x2018, 0x2019), (0x201C, 0x201D)]⟩

end RemotePyMite.Width
