import Almanac.Store

/-!
The Slovak calendar: name-days, fixed public holidays, and world and memorial days of every day of
the year.
-/

namespace Almanac.Bundled

/-- The names, the holiday and the world day of one day; the empty text where there is none. -/
abbrev Row := String × String × String

def january : List Row := [
  ("", "Deň vzniku Slovenskej republiky", ""),
  ("Alexandra, Karina", "", ""),
  ("Daniela", "", ""),
  ("Drahoslav", "", ""),
  ("Andrea", "", ""),
  ("Antónia", "Zjavenie Pána (Traja králi)", ""),
  ("Bohuslava", "", ""),
  ("Severín", "", ""),
  ("Alexej", "", ""),
  ("Dáša", "", ""),
  ("Malvína", "", ""),
  ("Ernest", "", ""),
  ("Rastislav", "", ""),
  ("Radovan", "", ""),
  ("Dobroslav", "", ""),
  ("Kristína", "", ""),
  ("Nataša", "", ""),
  ("Bohdana", "", ""),
  ("Drahomíra, Mário", "", ""),
  ("Dalibor", "", ""),
  ("Vincent", "", ""),
  ("Zora", "", ""),
  ("Miloš", "", ""),
  ("Timotej", "", ""),
  ("Gejza", "", ""),
  ("Tamara", "", ""),
  ("Bohuš", "", "Medzinárodný deň pamiatky obetí holokaustu"),
  ("Alfonz", "", ""),
  ("Gašpar", "", ""),
  ("Ema", "", ""),
  ("Emil", "", "")]

def february : List Row := [
  ("Tatiana", "", ""),
  ("Erika, Erik", "", ""),
  ("Blažej", "", ""),
  ("Veronika", "", "Svetový deň boja proti rakovine"),
  ("Agáta", "", ""),
  ("Dorota", "", ""),
  ("Vanda", "", ""),
  ("Zoja", "", ""),
  ("Zdenko", "", ""),
  ("Gabriela", "", ""),
  ("Dezider", "", ""),
  ("Perla", "", ""),
  ("Arpád", "", ""),
  ("Valentín", "", "Deň svätého Valentína"),
  ("Pravoslav", "", ""),
  ("Ida, Liana", "", ""),
  ("Miloslava", "", ""),
  ("Jaromír", "", ""),
  ("Vlasta", "", ""),
  ("Lívia", "", ""),
  ("Eleonóra", "", "Medzinárodný deň materinského jazyka"),
  ("Etela", "", ""),
  ("Roman, Romana", "", ""),
  ("Matej", "", ""),
  ("Frederik, Frederika", "", ""),
  ("Viktor", "", ""),
  ("Alexander", "", ""),
  ("Zlatica", "", ""),
  ("Radomír", "", "")]

def march : List Row := [
  ("Albín", "", ""),
  ("Anežka", "", ""),
  ("Bohumil, Bohumila", "", ""),
  ("Kazimír", "", ""),
  ("Fridrich", "", ""),
  ("Radoslav, Radoslava", "", ""),
  ("Tomáš", "", ""),
  ("Alan, Alana", "", "Medzinárodný deň žien"),
  ("Františka", "", ""),
  ("Branislav, Bruno", "", ""),
  ("Angela, Angelika", "", ""),
  ("Gregor", "", ""),
  ("Vlastimil", "", ""),
  ("Matilda", "", ""),
  ("Svetlana", "", "Svetový deň spotrebiteľských práv"),
  ("Boleslav", "", ""),
  ("Ľubica", "", ""),
  ("Eduard", "", ""),
  ("Jozef", "", ""),
  ("Víťazoslav, Klaudius", "", ""),
  ("Blahoslav", "", "Svetový deň poézie"),
  ("Beňadik", "", "Svetový deň vody"),
  ("Adrián", "", ""),
  ("Gabriel", "", ""),
  ("Marián", "", ""),
  ("Emanuel", "", ""),
  ("Alena", "", ""),
  ("Soňa", "", "Deň učiteľov"),
  ("Miroslav", "", ""),
  ("Vieroslava", "", ""),
  ("Benjamín", "", "")]

def april : List Row := [
  ("Hugo", "", ""),
  ("Zita", "", ""),
  ("Richard", "", ""),
  ("Izidor", "", ""),
  ("Miroslava", "", ""),
  ("Irena", "", ""),
  ("Zoltán", "", "Svetový deň zdravia"),
  ("Albert", "", ""),
  ("Milena", "", ""),
  ("Igor", "", ""),
  ("Július", "", ""),
  ("Estera", "", ""),
  ("Aleš", "", ""),
  ("Justína", "", ""),
  ("Fedor", "", ""),
  ("Dana, Danica", "", ""),
  ("Rudolf, Rudolfa", "", ""),
  ("Valér", "", ""),
  ("Jela", "", ""),
  ("Marcel", "", ""),
  ("Ervín", "", ""),
  ("Slavomír", "", "Deň Zeme"),
  ("Vojtech", "", "Svetový deň kníh a autorských práv"),
  ("Juraj", "", ""),
  ("Marek", "", ""),
  ("Jaroslava", "", ""),
  ("Jaroslav", "", ""),
  ("Jarmila", "", ""),
  ("Lea", "", ""),
  ("Anastázia", "", "")]

def may : List Row := [
  ("", "Sviatok práce", ""),
  ("Žigmund", "", ""),
  ("Galina, Timea", "", ""),
  ("Florián", "", ""),
  ("Lesana, Lesia", "", ""),
  ("Hermína", "", ""),
  ("Monika", "", ""),
  ("Ingrida", "Deň víťazstva nad fašizmom", ""),
  ("Roland", "", ""),
  ("Viktória", "", ""),
  ("Blažena", "", ""),
  ("Pankrác", "", ""),
  ("Servác", "", ""),
  ("Bonifác", "", ""),
  ("Žofia, Sofia", "", "Medzinárodný deň rodiny"),
  ("Svetozár", "", ""),
  ("Gizela, Aneta", "", ""),
  ("Viola", "", ""),
  ("Gertrúda", "", ""),
  ("Bernard", "", ""),
  ("Zina", "", ""),
  ("Júlia, Juliana", "", ""),
  ("Želmíra", "", ""),
  ("Ela", "", ""),
  ("Urban, Vivien", "", ""),
  ("Dušan", "", ""),
  ("Iveta", "", ""),
  ("Viliam", "", ""),
  ("Vilma", "", ""),
  ("Ferdinand", "", ""),
  ("Petronela, Petrana", "", "Svetový deň bez tabaku")]

def june : List Row := [
  ("Žaneta", "", "Medzinárodný deň detí"),
  ("Xénia, Oxana", "", ""),
  ("Karolína", "", ""),
  ("Lenka", "", ""),
  ("Laura", "", "Svetový deň životného prostredia"),
  ("Norbert", "", ""),
  ("Róbert, Robert", "", ""),
  ("Medard", "", ""),
  ("Stanislava", "", ""),
  ("Margaréta, Gréta", "", ""),
  ("Dobroslava", "", ""),
  ("Zlatko", "", ""),
  ("Anton", "", ""),
  ("Vasil", "", "Svetový deň darcov krvi"),
  ("Vít", "", ""),
  ("Blanka, Bianka", "", ""),
  ("Adolf", "", ""),
  ("Vratislav", "", ""),
  ("Alfréd", "", ""),
  ("Valéria", "", ""),
  ("Alojz", "", ""),
  ("Paulína", "", ""),
  ("Sidónia", "", ""),
  ("Ján", "", ""),
  ("Olívia, Tadeáš", "", ""),
  ("Adriána", "", ""),
  ("Ladislav, Ladislava", "", ""),
  ("Beáta", "", ""),
  ("Peter, Pavol, Petra", "", ""),
  ("Melánia", "", "")]

def july : List Row := [
  ("Diana", "", ""),
  ("Berta", "", ""),
  ("Miloslav", "", ""),
  ("Prokop", "", ""),
  ("Cyril, Metod", "Sviatok svätého Cyrila a Metoda", ""),
  ("Patrik, Patrícia", "", ""),
  ("Oliver", "", ""),
  ("Ivan", "", ""),
  ("Lujza", "", ""),
  ("Amália", "", ""),
  ("Milota", "", "Svetový deň populácie"),
  ("Nina", "", ""),
  ("Margita", "", ""),
  ("Kamil", "", ""),
  ("Henrich", "", ""),
  ("Drahomír, Rút", "", ""),
  ("Bohuslav", "", ""),
  ("Kamila", "", ""),
  ("Dušana", "", ""),
  ("Iľja, Eliáš", "", ""),
  ("Daniel", "", ""),
  ("Magdaléna", "", ""),
  ("Oľga", "", ""),
  ("Vladimír", "", ""),
  ("Jakub, Timur", "", ""),
  ("Anna, Hana, Anita", "", ""),
  ("Božena", "", ""),
  ("Krištof", "", ""),
  ("Marta", "", ""),
  ("Libuša", "", ""),
  ("Ignác", "", "")]

def august : List Row := [
  ("Božidara", "", ""),
  ("Gustáv", "", ""),
  ("Jerguš", "", ""),
  ("Dominika, Dominik", "", ""),
  ("Hortenzia", "", ""),
  ("Jozefína", "", ""),
  ("Štefánia", "", ""),
  ("Oskar", "", ""),
  ("Ľubomíra", "", ""),
  ("Vavrinec", "", ""),
  ("Zuzana", "", ""),
  ("Darina", "", "Medzinárodný deň mládeže"),
  ("Ľubomír", "", ""),
  ("Mojmír", "", ""),
  ("Marcela", "", ""),
  ("Leonard", "", ""),
  ("Milica", "", ""),
  ("Elena, Helena", "", ""),
  ("Lýdia", "", ""),
  ("Anabela, Liliana", "", ""),
  ("Jana", "", ""),
  ("Tichomír", "", ""),
  ("Filip", "", ""),
  ("Bartolomej", "", ""),
  ("Ľudovít", "", ""),
  ("Samuel", "", ""),
  ("Silvia", "", ""),
  ("Augustín", "", ""),
  ("Nikola, Nikolaj", "Výročie Slovenského národného povstania", ""),
  ("Ružena", "", ""),
  ("Nora", "", "")]

def september : List Row := [
  ("Drahoslava", "Deň Ústavy Slovenskej republiky", ""),
  ("Linda, Rebeka", "", ""),
  ("Belo", "", ""),
  ("Rozália", "", ""),
  ("Regína", "", ""),
  ("Alica", "", ""),
  ("Marianna", "", ""),
  ("Miriama", "", "Medzinárodný deň gramotnosti"),
  ("Martina", "", ""),
  ("Oleg", "", ""),
  ("Bystrík", "", ""),
  ("Mária, Marlena", "", ""),
  ("Ctibor", "", ""),
  ("Ľudomil", "", ""),
  ("Jolana", "Sedembolestná Panna Mária", ""),
  ("Ľudmila", "", ""),
  ("Olympia", "", ""),
  ("Eugénia", "", ""),
  ("Konštantín", "", ""),
  ("Ľuboslav, Ľuboslava", "", ""),
  ("Matúš", "", "Medzinárodný deň mieru"),
  ("Móric", "", ""),
  ("Zdenka", "", ""),
  ("Ľuboš, Ľubor", "", ""),
  ("Vladislav, Vladislava", "", ""),
  ("Edita", "", ""),
  ("Cyprián", "", "Svetový deň cestovného ruchu"),
  ("Václav", "", ""),
  ("Michal, Michaela", "", ""),
  ("Jarolím", "", "")]

def october : List Row := [
  ("Arnold", "", "Medzinárodný deň starších osôb"),
  ("Levoslav", "", ""),
  ("Stela", "", ""),
  ("František", "", "Svetový deň zvierat"),
  ("Viera", "", "Svetový deň učiteľov"),
  ("Natália", "", ""),
  ("Eliška", "", ""),
  ("Brigita", "", ""),
  ("Dionýz", "", ""),
  ("Slavomíra", "", ""),
  ("Valentína", "", ""),
  ("Maximilián", "", ""),
  ("Koloman", "", ""),
  ("Boris", "", ""),
  ("Terézia", "", ""),
  ("Vladimíra", "", "Svetový deň výživy"),
  ("Hedviga", "", ""),
  ("Lukáš", "", ""),
  ("Kristián", "", ""),
  ("Vendelín", "", ""),
  ("Uršuľa", "", ""),
  ("Sergej", "", ""),
  ("Alojzia", "", ""),
  ("Kvetoslava", "", ""),
  ("Aurel", "", ""),
  ("Demeter", "", ""),
  ("Sabína", "", ""),
  ("Dobromila", "", ""),
  ("Klára", "", ""),
  ("Šimon, Simona", "", ""),
  ("Aurélia", "", "Svetový deň sporenia")]

def november : List Row := [
  ("Denis, Denisa", "Sviatok všetkých svätých", ""),
  ("", "", "Pamiatka zosnulých"),
  ("Hubert", "", ""),
  ("Karol", "", ""),
  ("Imrich", "", ""),
  ("Renáta", "", ""),
  ("René", "", ""),
  ("Bohumír", "", ""),
  ("Teodor", "", ""),
  ("Tibor", "", ""),
  ("Martin, Maroš", "", ""),
  ("Svätopluk", "", ""),
  ("Stanislav", "", ""),
  ("Irma", "", "Svetový deň diabetu"),
  ("Leopold", "", ""),
  ("Agnesa", "", ""),
  ("Klaudia", "Deň boja za slobodu a demokraciu", ""),
  ("Eugen", "", ""),
  ("Alžbeta", "", ""),
  ("Félix", "", ""),
  ("Elvíra", "", ""),
  ("Cecília", "", ""),
  ("Klement", "", ""),
  ("Emília", "", ""),
  ("Katarína", "", ""),
  ("Kornel", "", ""),
  ("Milan", "", ""),
  ("Henrieta", "", ""),
  ("Vratko", "", ""),
  ("Ondrej, Andrej", "", "")]

def december : List Row := [
  ("Edmund", "", "Svetový deň boja proti AIDS"),
  ("Bibiána", "", ""),
  ("Oldrich", "", ""),
  ("Barbora, Barbara", "", ""),
  ("Oto", "", ""),
  ("Mikuláš", "", ""),
  ("Ambróz", "", ""),
  ("Marína", "", ""),
  ("Izabela", "", ""),
  ("Radúz", "", "Deň ľudských práv"),
  ("Hilda", "", ""),
  ("Otília", "", ""),
  ("Lucia", "", ""),
  ("Branislava, Bronislava", "", ""),
  ("Ivica", "", ""),
  ("Albína", "", ""),
  ("Kornélia", "", ""),
  ("Sláva, Slávka", "", ""),
  ("Judita", "", ""),
  ("Dagmara", "", ""),
  ("Bohdan", "", ""),
  ("Adela", "", ""),
  ("Nadežda", "", ""),
  ("Adam, Eva", "Štedrý deň", ""),
  ("", "Prvý sviatok vianočný", ""),
  ("Štefan", "Druhý sviatok vianočný", ""),
  ("Filoména", "", ""),
  ("Ivana, Ivona", "", ""),
  ("Milada", "", ""),
  ("Dávid", "", ""),
  ("Silvester", "", "")]

def months : List (List Row) :=
  [january, february, march, april, may, june, july, august, september, october, november, december]

def written (text : String) : Option String := if text = "" then none else some text

def record (key : DayKey) (row : Row) : Facts :=
  ⟨key, written row.1, written row.2.1, written row.2.2⟩

/-- The records of a month; the first row is that of the first day. -/
def monthRecords (month : Nat) (rows : List Row) : List Facts :=
  rows.zipIdx.filterMap fun (row, day) =>
    (DayKey.ofParts month (day + 1)).toOption.map (record · row)

def records : List Facts :=
  months.zipIdx.flatMap fun (rows, month) => monthRecords (month + 1) rows

/-- The store of these records, no two of which share a day. -/
def store : Store := (Store.ofRecords records).toOption.getD .empty

end Almanac.Bundled
