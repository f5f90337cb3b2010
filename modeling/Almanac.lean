import Almanac.Calendar
import Almanac.Command.Run
import Almanac.DataFile.Report
import Almanac.Main
import Almanac.Proofs.Blanks
import Almanac.Proofs.Building
import Almanac.Proofs.Checking
import Almanac.Proofs.Colours
import Almanac.Proofs.Computus
import Almanac.Proofs.Concatenation
import Almanac.Proofs.Dependence
import Almanac.Proofs.EasterDates
import Almanac.Proofs.EasterWeekdays
import Almanac.Proofs.Effects
import Almanac.Proofs.Expansion
import Almanac.Proofs.Exporting
import Almanac.Proofs.Hints
import Almanac.Proofs.KeyOrder
import Almanac.Proofs.LongDates
import Almanac.Proofs.Markers
import Almanac.Proofs.Marks
import Almanac.Proofs.MovingHolidays
import Almanac.Proofs.Pieces
import Almanac.Proofs.Rendering
import Almanac.Proofs.Rerendering
import Almanac.Proofs.RoundTrip
import Almanac.Proofs.Runs
import Almanac.Proofs.Scanning
import Almanac.Proofs.Tables
