import Recurrence.Zone.Rule

/-!
# The rules of the zones

For each zone the offset at the start of 1969 and every rule since, up to the end of 2099; from then
on a zone keeps the offset that it has.  Offsets and times of day are in seconds.
-/

namespace Recurrence.ZoneRules

def europeParis : ZoneRules :=
  ⟨3600, [
    ⟨1976, 1976, 3, .on 28, 3600, 3600, 7200⟩,
    ⟨1976, 1976, 9, .on 26, 3600, 7200, 3600⟩,
    ⟨1977, 1980, 4, .onOrAfter .sunday 1, 7200, 3600, 7200⟩,
    ⟨1977, 1977, 9, .on 25, 10800, 7200, 3600⟩,
    ⟨1978, 1978, 10, .on 1, 10800, 7200, 3600⟩,
    ⟨1979, 1995, 9, .last .sunday, 10800, 7200, 3600⟩,
    ⟨1981, 2099, 3, .last .sunday, 7200, 3600, 7200⟩,
    ⟨1996, 2099, 10, .last .sunday, 10800, 7200, 3600⟩]⟩

def europeLondon : ZoneRules :=
  ⟨3600, [
    ⟨1971, 1975, 10, .last .sunday, 10800, 3600, 0⟩,
    ⟨1972, 1980, 3, .onOrAfter .sunday 15, 7200, 0, 3600⟩,
    ⟨1976, 1980, 10, .onOrAfter .sunday 23, 10800, 3600, 0⟩,
    ⟨1981, 2099, 3, .last .sunday, 3600, 0, 3600⟩,
    ⟨1981, 1994, 10, .onOrAfter .sunday 23, 7200, 3600, 0⟩,
    ⟨1995, 1998, 10, .onOrAfter .sunday 21, 7200, 3600, 0⟩,
    ⟨1999, 2099, 10, .last .sunday, 7200, 3600, 0⟩]⟩

def europeDublin : ZoneRules :=
  ⟨3600, [
    ⟨1971, 1975, 10, .last .sunday, 10800, 3600, 0⟩,
    ⟨1972, 1980, 3, .onOrAfter .sunday 15, 7200, 0, 3600⟩,
    ⟨1976, 1980, 10, .onOrAfter .sunday 23, 10800, 3600, 0⟩,
    ⟨1981, 2099, 3, .last .sunday, 3600, 0, 3600⟩,
    ⟨1981, 1994, 10, .onOrAfter .sunday 23, 7200, 3600, 0⟩,
    ⟨1995, 1998, 10, .onOrAfter .sunday 21, 7200, 3600, 0⟩,
    ⟨1999, 2099, 10, .last .sunday, 7200, 3600, 0⟩]⟩

def americaNewYork : ZoneRules :=
  ⟨-18000, [
    ⟨1969, 1973, 4, .last .sunday, 7200, (-18000), (-14400)⟩,
    ⟨1969, 2006, 10, .last .sunday, 7200, (-14400), (-18000)⟩,
    ⟨1974, 1974, 1, .on 6, 7200, (-18000), (-14400)⟩,
    ⟨1975, 1975, 2, .on 23, 7200, (-18000), (-14400)⟩,
    ⟨1976, 1986, 4, .last .sunday, 7200, (-18000), (-14400)⟩,
    ⟨1987, 2006, 4, .onOrAfter .sunday 1, 7200, (-18000), (-14400)⟩,
    ⟨2007, 2099, 3, .onOrAfter .sunday 8, 7200, (-18000), (-14400)⟩,
    ⟨2007, 2099, 11, .onOrAfter .sunday 1, 7200, (-14400), (-18000)⟩]⟩

def americaLosAngeles : ZoneRules :=
  ⟨-28800, [
    ⟨1969, 1973, 4, .last .sunday, 7200, (-28800), (-25200)⟩,
    ⟨1969, 2006, 10, .last .sunday, 7200, (-25200), (-28800)⟩,
    ⟨1974, 1974, 1, .on 6, 7200, (-28800), (-25200)⟩,
    ⟨1975, 1975, 2, .on 23, 7200, (-28800), (-25200)⟩,
    ⟨1976, 1986, 4, .last .sunday, 7200, (-28800), (-25200)⟩,
    ⟨1987, 2006, 4, .onOrAfter .sunday 1, 7200, (-28800), (-25200)⟩,
    ⟨2007, 2099, 3, .onOrAfter .sunday 8, 7200, (-28800), (-25200)⟩,
    ⟨2007, 2099, 11, .onOrAfter .sunday 1, 7200, (-25200), (-28800)⟩]⟩

def americaStJohns : ZoneRules :=
  ⟨-12600, [
    ⟨1969, 1986, 4, .last .sunday, 7200, (-12600), (-9000)⟩,
    ⟨1969, 1986, 10, .last .sunday, 7200, (-9000), (-12600)⟩,
    ⟨1987, 1987, 4, .on 5, 60, (-12600), (-9000)⟩,
    ⟨1987, 1987, 10, .on 25, 60, (-9000), (-12600)⟩,
    ⟨1988, 1988, 4, .on 3, 60, (-12600), (-5400)⟩,
    ⟨1988, 1988, 10, .on 30, 60, (-5400), (-12600)⟩,
    ⟨1989, 2006, 4, .onOrAfter .sunday 1, 60, (-12600), (-9000)⟩,
    ⟨1989, 2006, 10, .last .sunday, 60, (-9000), (-12600)⟩,
    ⟨2007, 2011, 3, .onOrAfter .sunday 8, 60, (-12600), (-9000)⟩,
    ⟨2007, 2010, 11, .onOrAfter .sunday 1, 60, (-9000), (-12600)⟩,
    ⟨2011, 2099, 11, .onOrAfter .sunday 1, 7200, (-9000), (-12600)⟩,
    ⟨2012, 2099, 3, .onOrAfter .sunday 8, 7200, (-12600), (-9000)⟩]⟩

def americaSaoPaulo : ZoneRules :=
  ⟨-10800, [
    ⟨1985, 1985, 11, .on 2, 0, (-10800), (-7200)⟩,
    ⟨1986, 1986, 3, .on 15, 0, (-7200), (-10800)⟩,
    ⟨1986, 1987, 10, .on 25, 0, (-10800), (-7200)⟩,
    ⟨1987, 1987, 2, .on 14, 0, (-7200), (-10800)⟩,
    ⟨1988, 1988, 2, .on 7, 0, (-7200), (-10800)⟩,
    ⟨1988, 1991, 10, .onOrAfter .sunday 15, 0, (-10800), (-7200)⟩,
    ⟨1989, 1989, 1, .on 29, 0, (-7200), (-10800)⟩,
    ⟨1990, 1991, 2, .onOrAfter .sunday 11, 0, (-7200), (-10800)⟩,
    ⟨1992, 1992, 2, .on 9, 0, (-7200), (-10800)⟩,
    ⟨1992, 1992, 10, .on 25, 0, (-10800), (-7200)⟩,
    ⟨1993, 1993, 1, .on 31, 0, (-7200), (-10800)⟩,
    ⟨1993, 1995, 10, .onOrAfter .sunday 11, 0, (-10800), (-7200)⟩,
    ⟨1994, 1995, 2, .onOrAfter .sunday 14, 0, (-7200), (-10800)⟩,
    ⟨1996, 1997, 2, .onOrAfter .sunday 10, 0, (-7200), (-10800)⟩,
    ⟨1996, 1997, 10, .on 6, 0, (-10800), (-7200)⟩,
    ⟨1998, 1998, 3, .on 1, 0, (-7200), (-10800)⟩,
    ⟨1998, 1998, 10, .on 11, 0, (-10800), (-7200)⟩,
    ⟨1999, 2000, 2, .onOrAfter .sunday 21, 0, (-7200), (-10800)⟩,
    ⟨1999, 2000, 10, .onOrAfter .sunday 2, 0, (-10800), (-7200)⟩,
    ⟨2001, 2006, 2, .onOrAfter .sunday 14, 0, (-7200), (-10800)⟩,
    ⟨2001, 2001, 10, .on 14, 0, (-10800), (-7200)⟩,
    ⟨2002, 2002, 11, .on 3, 0, (-10800), (-7200)⟩,
    ⟨2003, 2003, 10, .on 19, 0, (-10800), (-7200)⟩,
    ⟨2004, 2004, 11, .on 2, 0, (-10800), (-7200)⟩,
    ⟨2005, 2005, 10, .on 16, 0, (-10800), (-7200)⟩,
    ⟨2006, 2006, 11, .on 5, 0, (-10800), (-7200)⟩,
    ⟨2007, 2007, 2, .on 25, 0, (-7200), (-10800)⟩,
    ⟨2007, 2011, 10, .onOrAfter .sunday 13, 0, (-10800), (-7200)⟩,
    ⟨2008, 2011, 2, .onOrAfter .sunday 15, 0, (-7200), (-10800)⟩,
    ⟨2012, 2012, 2, .on 26, 0, (-7200), (-10800)⟩,
    ⟨2012, 2017, 10, .onOrAfter .sunday 15, 0, (-10800), (-7200)⟩,
    ⟨2013, 2019, 2, .onOrAfter .sunday 16, 0, (-7200), (-10800)⟩,
    ⟨2018, 2018, 11, .on 4, 0, (-10800), (-7200)⟩]⟩

def americaSantiago : ZoneRules :=
  ⟨-10800, [
    ⟨1969, 1970, 3, .last .sunday, 0, (-10800), (-14400)⟩,
    ⟨1969, 1969, 11, .on 23, 0, (-14400), (-10800)⟩,
    ⟨1970, 1972, 10, .onOrAfter .sunday 9, 0, (-14400), (-10800)⟩,
    ⟨1971, 1986, 3, .onOrAfter .sunday 9, 0, (-10800), (-14400)⟩,
    ⟨1973, 1973, 9, .on 30, 0, (-14400), (-10800)⟩,
    ⟨1974, 1989, 10, .onOrAfter .sunday 9, 0, (-14400), (-10800)⟩,
    ⟨1987, 1987, 4, .on 12, 0, (-10800), (-14400)⟩,
    ⟨1988, 1996, 3, .onOrAfter .sunday 9, 0, (-10800), (-14400)⟩,
    ⟨1990, 1990, 9, .on 16, 0, (-14400), (-10800)⟩,
    ⟨1991, 1997, 10, .onOrAfter .sunday 9, 0, (-14400), (-10800)⟩,
    ⟨1997, 1997, 3, .on 30, 0, (-10800), (-14400)⟩,
    ⟨1998, 1998, 3, .on 15, 0, (-10800), (-14400)⟩,
    ⟨1998, 1998, 9, .on 27, 0, (-14400), (-10800)⟩,
    ⟨1999, 1999, 4, .on 4, 0, (-10800), (-14400)⟩,
    ⟨1999, 2010, 10, .onOrAfter .sunday 9, 0, (-14400), (-10800)⟩,
    ⟨2000, 2007, 3, .onOrAfter .sunday 8, 0, (-10800), (-14400)⟩,
    ⟨2008, 2008, 3, .on 30, 0, (-10800), (-14400)⟩,
    ⟨2009, 2009, 3, .on 15, 0, (-10800), (-14400)⟩,
    ⟨2010, 2010, 4, .on 4, 0, (-10800), (-14400)⟩,
    ⟨2011, 2011, 5, .on 8, 0, (-10800), (-14400)⟩,
    ⟨2011, 2011, 8, .on 21, 0, (-14400), (-10800)⟩,
    ⟨2012, 2014, 4, .last .sunday, 0, (-10800), (-14400)⟩,
    ⟨2012, 2014, 9, .onOrAfter .sunday 2, 0, (-14400), (-10800)⟩,
    ⟨2016, 2018, 5, .onOrAfter .sunday 9, 0, (-10800), (-14400)⟩,
    ⟨2016, 2018, 8, .onOrAfter .sunday 8, 0, (-14400), (-10800)⟩,
    ⟨2019, 2099, 4, .onOrAfter .sunday 2, 0, (-10800), (-14400)⟩,
    ⟨2019, 2022, 9, .onOrAfter .sunday 5, 0, (-14400), (-10800)⟩,
    ⟨2023, 2099, 9, .onOrAfter .sunday 2, 0, (-14400), (-10800)⟩]⟩

def americaCaracas : ZoneRules :=
  ⟨-14400, [
    ⟨2007, 2007, 12, .on 9, 10800, (-14400), (-16200)⟩,
    ⟨2016, 2016, 5, .on 1, 9000, (-16200), (-14400)⟩]⟩

def americaScoresbysund : ZoneRules :=
  ⟨-7200, [
    ⟨1980, 1980, 4, .on 6, 7200, (-7200), (-3600)⟩,
    ⟨1980, 1980, 9, .on 28, 10800, (-3600), (-7200)⟩,
    ⟨1981, 1981, 3, .on 29, 0, (-7200), 0⟩,
    ⟨1981, 1995, 9, .last .sunday, 3600, 0, (-3600)⟩,
    ⟨1982, 2023, 3, .last .sunday, 0, (-3600), 0⟩,
    ⟨1996, 2023, 10, .last .sunday, 3600, 0, (-3600)⟩,
    ⟨2024, 2099, 10, .last .sunday, 0, (-3600), (-7200)⟩,
    ⟨2025, 2099, 3, .onOrAfter .saturday 24, 82800, (-7200), (-3600)⟩]⟩

def atlanticAzores : ZoneRules :=
  ⟨-3600, [
    ⟨1982, 1992, 3, .last .sunday, 0, (-3600), 0⟩,
    ⟨1982, 1995, 9, .last .sunday, 3600, 0, (-3600)⟩,
    ⟨1992, 1992, 12, .on 27, 3600, (-3600), 0⟩,
    ⟨1993, 1993, 3, .on 28, 3600, 0, 3600⟩,
    ⟨1993, 1993, 6, .on 17, 7200, 3600, 0⟩,
    ⟨1994, 2099, 3, .last .sunday, 0, (-3600), 0⟩,
    ⟨1996, 2099, 10, .last .sunday, 3600, 0, (-3600)⟩]⟩

def africaMonrovia : ZoneRules :=
  ⟨-2670, [
    ⟨1972, 1972, 1, .on 7, 0, (-2670), 0⟩]⟩

def antarcticaTroll : ZoneRules :=
  ⟨0, [
    ⟨2005, 2099, 3, .last .sunday, 3600, 0, 7200⟩,
    ⟨2005, 2099, 10, .last .sunday, 10800, 7200, 0⟩]⟩

def asiaBeirut : ZoneRules :=
  ⟨7200, [
    ⟨1972, 1972, 6, .on 22, 0, 7200, 10800⟩,
    ⟨1972, 1977, 10, .on 1, 0, 10800, 7200⟩,
    ⟨1973, 1977, 5, .on 1, 0, 7200, 10800⟩,
    ⟨1978, 1978, 4, .on 30, 0, 7200, 10800⟩,
    ⟨1978, 1978, 9, .on 30, 0, 10800, 7200⟩,
    ⟨1984, 1987, 5, .on 1, 0, 7200, 10800⟩,
    ⟨1984, 1991, 10, .on 16, 0, 10800, 7200⟩,
    ⟨1988, 1988, 6, .on 1, 0, 7200, 10800⟩,
    ⟨1989, 1989, 5, .on 10, 0, 7200, 10800⟩,
    ⟨1990, 1992, 5, .on 1, 0, 7200, 10800⟩,
    ⟨1992, 1992, 10, .on 4, 0, 10800, 7200⟩,
    ⟨1993, 2099, 3, .last .sunday, 0, 7200, 10800⟩,
    ⟨1993, 1998, 9, .last .sunday, 0, 10800, 7200⟩,
    ⟨1999, 2099, 10, .last .sunday, 0, 10800, 7200⟩]⟩

def asiaTehran : ZoneRules :=
  ⟨12600, [
    ⟨1977, 1977, 3, .on 21, 82800, 12600, 16200⟩,
    ⟨1977, 1977, 10, .on 21, 0, 16200, 14400⟩,
    ⟨1978, 1978, 3, .on 25, 0, 14400, 18000⟩,
    ⟨1978, 1978, 8, .on 5, 3600, 18000, 14400⟩,
    ⟨1978, 1978, 11, .on 11, 0, 14400, 12600⟩,
    ⟨1979, 1979, 5, .on 27, 0, 12600, 16200⟩,
    ⟨1979, 1979, 9, .on 19, 0, 16200, 12600⟩,
    ⟨1980, 1980, 3, .on 21, 0, 12600, 16200⟩,
    ⟨1980, 1980, 9, .on 23, 0, 16200, 12600⟩,
    ⟨1991, 1991, 5, .on 3, 0, 12600, 16200⟩,
    ⟨1991, 1995, 9, .on 22, 0, 16200, 12600⟩,
    ⟨1992, 1995, 3, .on 22, 0, 12600, 16200⟩,
    ⟨1996, 1996, 3, .on 21, 0, 12600, 16200⟩,
    ⟨1996, 1996, 9, .on 21, 0, 16200, 12600⟩,
    ⟨1997, 1999, 3, .on 22, 0, 12600, 16200⟩,
    ⟨1997, 1999, 9, .on 22, 0, 16200, 12600⟩,
    ⟨2000, 2000, 3, .on 21, 0, 12600, 16200⟩,
    ⟨2000, 2000, 9, .on 21, 0, 16200, 12600⟩,
    ⟨2001, 2003, 3, .on 22, 0, 12600, 16200⟩,
    ⟨2001, 2003, 9, .on 22, 0, 16200, 12600⟩,
    ⟨2004, 2004, 3, .on 21, 0, 12600, 16200⟩,
    ⟨2004, 2004, 9, .on 21, 0, 16200, 12600⟩,
    ⟨2005, 2005, 3, .on 22, 0, 12600, 16200⟩,
    ⟨2005, 2005, 9, .on 22, 0, 16200, 12600⟩,
    ⟨2008, 2008, 3, .on 21, 0, 12600, 16200⟩,
    ⟨2008, 2008, 9, .on 21, 0, 16200, 12600⟩,
    ⟨2009, 2011, 3, .on 22, 0, 12600, 16200⟩,
    ⟨2009, 2011, 9, .on 22, 0, 16200, 12600⟩,
    ⟨2012, 2012, 3, .on 21, 0, 12600, 16200⟩,
    ⟨2012, 2012, 9, .on 21, 0, 16200, 12600⟩,
    ⟨2013, 2015, 3, .on 22, 0, 12600, 16200⟩,
    ⟨2013, 2015, 9, .on 22, 0, 16200, 12600⟩,
    ⟨2016, 2016, 3, .on 21, 0, 12600, 16200⟩,
    ⟨2016, 2016, 9, .on 21, 0, 16200, 12600⟩,
    ⟨2017, 2019, 3, .on 22, 0, 12600, 16200⟩,
    ⟨2017, 2019, 9, .on 22, 0, 16200, 12600⟩,
    ⟨2020, 2020, 3, .on 21, 0, 12600, 16200⟩,
    ⟨2020, 2020, 9, .on 21, 0, 16200, 12600⟩,
    ⟨2021, 2022, 3, .on 22, 0, 12600, 16200⟩,
    ⟨2021, 2022, 9, .on 22, 0, 16200, 12600⟩]⟩

def asiaTokyo : ZoneRules :=
  ⟨32400, []⟩

def asiaKolkata : ZoneRules :=
  ⟨19800, []⟩

def asiaKathmandu : ZoneRules :=
  ⟨19800, [
    ⟨1986, 1986, 1, .on 1, 0, 19800, 20700⟩]⟩

def asiaPyongyang : ZoneRules :=
  ⟨32400, [
    ⟨2015, 2015, 8, .on 15, 0, 32400, 30600⟩,
    ⟨2018, 2018, 5, .on 4, 84600, 30600, 32400⟩]⟩

def australiaLordHowe : ZoneRules :=
  ⟨36000, [
    ⟨1981, 1981, 3, .on 1, 0, 36000, 37800⟩,
    ⟨1981, 1984, 10, .last .sunday, 7200, 37800, 41400⟩,
    ⟨1982, 1985, 3, .onOrAfter .sunday 1, 7200, 41400, 37800⟩,
    ⟨1985, 1985, 10, .on 27, 7200, 37800, 39600⟩,
    ⟨1986, 1989, 3, .onOrAfter .sunday 14, 7200, 39600, 37800⟩,
    ⟨1986, 1987, 10, .onOrAfter .sunday 19, 7200, 37800, 39600⟩,
    ⟨1988, 1999, 10, .last .sunday, 7200, 37800, 39600⟩,
    ⟨1990, 1995, 3, .onOrAfter .sunday 1, 7200, 39600, 37800⟩,
    ⟨1996, 2005, 3, .last .sunday, 7200, 39600, 37800⟩,
    ⟨2000, 2000, 8, .on 27, 7200, 37800, 39600⟩,
    ⟨2001, 2007, 10, .last .sunday, 7200, 37800, 39600⟩,
    ⟨2006, 2006, 4, .on 2, 7200, 39600, 37800⟩,
    ⟨2007, 2007, 3, .on 25, 7200, 39600, 37800⟩,
    ⟨2008, 2099, 4, .onOrAfter .sunday 1, 7200, 39600, 37800⟩,
    ⟨2008, 2099, 10, .onOrAfter .sunday 1, 7200, 37800, 39600⟩]⟩

def australiaSydney : ZoneRules :=
  ⟨36000, [
    ⟨1971, 1985, 10, .last .sunday, 7200, 36000, 39600⟩,
    ⟨1972, 1972, 2, .on 27, 10800, 39600, 36000⟩,
    ⟨1973, 1981, 3, .onOrAfter .sunday 1, 10800, 39600, 36000⟩,
    ⟨1982, 1982, 4, .on 4, 10800, 39600, 36000⟩,
    ⟨1983, 1985, 3, .onOrAfter .sunday 1, 10800, 39600, 36000⟩,
    ⟨1986, 1989, 3, .onOrAfter .sunday 14, 10800, 39600, 36000⟩,
    ⟨1986, 1987, 10, .onOrAfter .sunday 19, 7200, 36000, 39600⟩,
    ⟨1988, 1999, 10, .last .sunday, 7200, 36000, 39600⟩,
    ⟨1990, 1995, 3, .onOrAfter .sunday 1, 10800, 39600, 36000⟩,
    ⟨1996, 2005, 3, .last .sunday, 10800, 39600, 36000⟩,
    ⟨2000, 2000, 8, .on 27, 7200, 36000, 39600⟩,
    ⟨2001, 2007, 10, .last .sunday, 7200, 36000, 39600⟩,
    ⟨2006, 2006, 4, .on 2, 10800, 39600, 36000⟩,
    ⟨2007, 2007, 3, .on 25, 10800, 39600, 36000⟩,
    ⟨2008, 2099, 4, .onOrAfter .sunday 1, 10800, 39600, 36000⟩,
    ⟨2008, 2099, 10, .onOrAfter .sunday 1, 7200, 36000, 39600⟩]⟩

def pacificApia : ZoneRules :=
  ⟨-39600, [
    ⟨2010, 2010, 9, .on 26, 0, (-39600), (-36000)⟩,
    ⟨2011, 2011, 4, .on 2, 14400, (-36000), (-39600)⟩,
    ⟨2011, 2011, 9, .on 24, 10800, (-39600), (-36000)⟩,
    ⟨2011, 2011, 12, .on 30, 0, (-36000), 50400⟩,
    ⟨2012, 2021, 4, .onOrAfter .sunday 1, 14400, 50400, 46800⟩,
    ⟨2012, 2020, 9, .last .sunday, 10800, 46800, 50400⟩]⟩

def pacificChatham : ZoneRules :=
  ⟨45900, [
    ⟨1974, 1974, 11, .on 3, 9900, 45900, 49500⟩,
    ⟨1975, 1975, 2, .on 23, 13500, 49500, 45900⟩,
    ⟨1975, 1988, 10, .last .sunday, 9900, 45900, 49500⟩,
    ⟨1976, 1989, 3, .onOrAfter .sunday 1, 13500, 49500, 45900⟩,
    ⟨1989, 1994, 10, .onOrAfter .sunday 2, 9900, 45900, 49500⟩,
    ⟨1990, 2007, 3, .onOrAfter .sunday 15, 13500, 49500, 45900⟩,
    ⟨1995, 2006, 10, .onOrAfter .sunday 1, 9900, 45900, 49500⟩,
    ⟨2007, 2099, 9, .last .sunday, 9900, 45900, 49500⟩,
    ⟨2008, 2099, 4, .onOrAfter .sunday 1, 13500, 49500, 45900⟩]⟩

def pacificKiritimati : ZoneRules :=
  ⟨-38400, [
    ⟨1979, 1979, 10, .on 1, 0, (-38400), (-36000)⟩,
    ⟨1994, 1994, 12, .on 31, 0, (-36000), 50400⟩]⟩

def pacificKwajalein : ZoneRules :=
  ⟨39600, [
    ⟨1969, 1969, 10, .on 1, 0, 39600, (-43200)⟩,
    ⟨1993, 1993, 8, .on 21, 0, (-43200), 43200⟩]⟩

def est : ZoneRules :=
  ⟨-18000, []⟩

def etcGmtPlus12 : ZoneRules :=
  ⟨-43200, []⟩

def etcGmtMinus14 : ZoneRules :=
  ⟨50400, []⟩

def utc : ZoneRules :=
  ⟨0, []⟩

def zulu : ZoneRules :=
  ⟨0, []⟩

/-- The zones with rules of their own, by name. -/
def all : List (String × ZoneRules) := [
  ("Europe/Paris", europeParis),
  ("Europe/London", europeLondon),
  ("Europe/Dublin", europeDublin),
  ("America/New_York", americaNewYork),
  ("America/Los_Angeles", americaLosAngeles),
  ("America/St_Johns", americaStJohns),
  ("America/Sao_Paulo", americaSaoPaulo),
  ("America/Santiago", americaSantiago),
  ("America/Caracas", americaCaracas),
  ("America/Scoresbysund", americaScoresbysund),
  ("Atlantic/Azores", atlanticAzores),
  ("Africa/Monrovia", africaMonrovia),
  ("Antarctica/Troll", antarcticaTroll),
  ("Asia/Beirut", asiaBeirut),
  ("Asia/Tehran", asiaTehran),
  ("Asia/Tokyo", asiaTokyo),
  ("Asia/Kolkata", asiaKolkata),
  ("Asia/Kathmandu", asiaKathmandu),
  ("Asia/Pyongyang", asiaPyongyang),
  ("Australia/Lord_Howe", australiaLordHowe),
  ("Australia/Sydney", australiaSydney),
  ("Pacific/Apia", pacificApia),
  ("Pacific/Chatham", pacificChatham),
  ("Pacific/Kiritimati", pacificKiritimati),
  ("Pacific/Kwajalein", pacificKwajalein),
  ("EST", est),
  ("Etc/GMT+12", etcGmtPlus12),
  ("Etc/GMT-14", etcGmtMinus14),
  ("UTC", utc),
  ("Zulu", zulu)]

end Recurrence.ZoneRules
