import TaskShell.Cow.Characters

/-!
# Cow templates, second part

Template files by name.
-/

namespace TaskShell.Cow

def templatesB : List (String × String) := [
  ("kosh", "##
## It's a Kosh Cow!
##
$the_cow = <<EOC;
    $thoughts
     $thoughts
      $thoughts
  ___       _____     ___
 /   \\\\     /    /|   /   \\\\
|     |   /    / |  |     |
|     |  /____/  |  |     |     
|     |  |    |  |  |     |
|     |  | \x7b\x7d | /   |     |
|     |  |____|/    |     |
|     |    |==|     |     |
|      \\\\___________/      |
|                         |
|                         |
EOC
"),
  ("luke-koala", "##
## From the canonical koala collection
##
$the_cow = <<EOC;
  $thoughts
   $thoughts          .
       ___   //
     \x7b~._.~\x7d// 
      ( Y )K/  
     ()~*~()   
     (_)-(_)   
     Luke    
     Sywalker
     koala   
EOC
"),
  ("meow", r#"##
## A meowing tiger?
##
$the_cow = <<EOC;
  $thoughts
   $thoughts ,   _ ___.--'''`--''//-,-_--_.
      \\`"' ` || \\\\ \\ \\\\/ / // / ,-\\\\`,_
     /'`  \\ \\ || Y  | \\|/ / // / - |__ `-,
    /\@"\\  ` \\ `\\ |  | ||/ // | \\/  \\  `-._`-,_.,
   /  _.-. `.-\\,___/\\ _/|_/_\\_\\/|_/ |     `-._._)
   `-'``/  /  |  // \\__/\\__  /  \\__/ \\
        `-'  /-\\/  | -|   \\__ \\   |-' |
          __/\\ / _/ \\/ __,-'   ) ,' _|'
         (((__/(((_.' ((___..-'((__,'
EOC
"#),
  ("milk", r"##
## Milk from Milk and Cheese
##
$the_cow = <<EOC;
 $thoughts     ____________ 
  $thoughts    |__________|
      /           /\\
     /           /  \\
    /___________/___/|
    |          |     |
    |  ==\\ /== |     |
    |   O   O  | \\ \\ |
    |     <    |  \\ \\|
   /|          |   \\ \\
  / |  \\_____/ |   / /
 / /|          |  / /|
/||\\|          | /||\\/
    -------------|   
        | |    | | 
       <__/    \\__>
EOC
"),
  ("moofasa", r"##
## MOOfasa.
##
$the_cow = <<EOC;
       $thoughts    ____
        $thoughts  /    \\
          | ^__^ |
          | ($eyes) |______
          | (__) |      )\\/\\
           \\____/|----w |
                ||     ||

	         Moofasa
EOC
"),
  ("moose", r"$the_cow = <<EOC;
  $thoughts
   $thoughts   \\_\\_    _/_/
    $thoughts      \\__/
           ($eyes)\\_______
           (__)\\       )\\/\\
            $tongue ||----w |
               ||     ||
EOC
"),
  ("mutilated", r"##
## A mutilated cow, from aspolito@csua.berkeley.edu
##
$the_cow = <<EOC;
       $thoughts   \\_______
 v__v   $thoughts  \\   O   )
 ($eyes)      ||----w |
 (__)      ||     ||  \\/\\
  $tongue
EOC
"),
  ("owl", r#"$the_cow = <<'EOC';
   $thoughts
    $thoughts     ,_, 
     $thoughts   ( $eyes )
      $thoughts   (   )
       $thoughts  " " "
EOC

$eyes = $eyes || "°°";
$tongue = $tongue || " ";"#),
  ("ren", r"##
## Ren 
##
$the_cow = <<EOC;
   $thoughts
    $thoughts
    ____  
   /# /_\\_
  |  |/o\\o\\
  |  \\\\_/_/
 / |_   |  
|  ||\\_ ~| 
|  ||| \\/  
|  |||_    
 \\//  |    
  ||  |    
  ||_  \\   
  \\_|  o|  
  /\\___/   
 /  ||||__ 
    (___)_)
EOC
"),
  ("satanic", r"##
## Satanic cow, source unknown.
##
$the_cow = <<EOC;
     $thoughts
      $thoughts  (__)  
         (\\/)  
  /-------\\/    
 / | 666 ||    
*  ||----||      
   ~~    ~~      
EOC
"),
  ("sheep", "##
## The non-flaming sheep.
##
$the_cow = <<EOC
  $thoughts
   $thoughts
       __     
      U$\x7beyes\x7dU\\\\.'\\@\\@\\@\\@\\@\\@`.
      \\\\__/(\\@\\@\\@\\@\\@\\@\\@\\@\\@\\@)
           (\\@\\@\\@\\@\\@\\@\\@\\@)
           `YY~~~~YY'
            ||    ||
EOC
"),
  ("skeleton", "##
## This 'Scowleton' brought to you by one of 
## \x7bappel,kube,rowe\x7d@csua.berkeley.edu
##
$the_cow = <<EOC;
          $thoughts      (__)      
           $thoughts     /$eyes|  
            $thoughts   (_\"_)*+++++++++*
                   //I#\\\\\\\\\\\\\\\\\\\\\\\\\\\\\\\\I\\\\
                   I[I|I|||||I I `
                   I`I'///'' I I
                   I I       I I
                   ~ ~       ~ ~
                     Scowleton
EOC
"),
  ("small", r#"##
## A small cow, artist unknown
##
$eyes = ".." unless ($eyes);
$the_cow = <<EOC;
       $thoughts   ,__,
        $thoughts  ($eyes)____
           (__)    )\\
            $tongue||--|| *
EOC
"#),
  ("sodomized", r"##
## A cow performing an unnatural act, artist unknown.
##
$the_cow = <<EOC;
      $thoughts                _
       $thoughts              (_)
        $thoughts   ^__^       / \\
         $thoughts  ($eyes)\\_____/_\\ \\
            (__)\\       ) /
             $tongue ||----w ((
                ||     ||>> 
EOC
"),
  ("stegosaurus", "##
## A stegosaur with a top hat?
##
$the_cow = <<EOC;
$thoughts                             .       .
 $thoughts                           / `.   .' \" 
  $thoughts                  .---.  <    > <    >  .---.
   $thoughts                 |    \\\\  \\\\ - ~ ~ - /  /    |
         _____          ..-~             ~-..-~
        |     |   \\\\~~~\\\\.'                    `./~~~/
       ---------   \\\\__/                        \\\\__/
      .'  O    \\\\     /               /       \\\\  \" 
     (_____,    `._.'               |         \x7d  \\\\/~~~/
      `----.          /       \x7d     |        /    \\\\__/
            `-.      |       /      |       /      `. ,~~|
                ~-.__|      /_ - ~ ^|      /- _      `..-'   
                     |     /        |     /     ~-.     `-. _  _  _
                     |_____|        |_____|         ~ - . _ _ _ _ _>
EOC
"),
  ("stimpy", r"##
## Stimpy!
##
$the_cow = <<EOC;
  $thoughts     .    _  .    
   $thoughts    |\\_|/__/|    
       / / \\/ \\  \\  
      /__|O||O|__ \\ 
     |/_ \\_/\\_/ _\\ |  
     | | (____) | ||  
     \\/\\___/\\__/  // 
     (_/         ||
      |          ||
      |          ||\\   
       \\        //_/  
        \\______//
       __ || __||
      (____(____)
EOC
"),
  ("supermilker", r"##
## A cow being milked, probably from Lars Smith (lars@csua.berkeley.edu)
##
$the_cow = <<EOC;
  $thoughts   ^__^
   $thoughts  ($eyes)\\_______        ________
      (__)\\       )\\/\\    |Super |
       $tongue ||----W |       |Milker|
          ||    UDDDDDDDDD|______|
EOC
"),
  ("surgery", r"##
## A cow operation, artist unknown
##
$the_cow = <<EOC;
          $thoughts           \\  / 
           $thoughts           \\/  
               (__)    /\\         
               ($eyes)   O  O        
               _\\/_   //         
         *    (    ) //       
          \\  (\\\\    //       
           \\(  \\\\    )                              
            (   \\\\   )   /\\                          
  ___[\\______/^^^^^^^\\__/) o-)__                     
 |\\__[=======______//________)__\\                    
 \\|_______________//____________|                    
     |||      || //||     |||
     |||      || @.||     |||                        
      ||      \\/  .\\/      ||                        
                 . .                                 
                '.'.`                                

            COW-OPERATION                           
EOC
"),
  ("telebears", r"##
## A cow performing an unnatural act, artist unknown.
##
$the_cow = <<EOC;
      $thoughts                _
       $thoughts              (_)   <-- TeleBEARS
        $thoughts   ^__^       / \\
         $thoughts  ($eyes)\\_____/_\\ \\
            (__)\\  you  ) /
             $tongue ||----w ((
                ||     ||>> 
EOC
"),
  ("three-eyes", r"##
## A cow with three eyes, brought to you by dpetrou@csua.berkeley.edu
##
$extra = chop($eyes);
$eyes .= ($extra x 2);
$the_cow = <<EOC;
        $thoughts  ^___^
         $thoughts ($eyes)\\_______
           (___)\\       )\\/\\
            $tongue  ||----w |
                ||     ||
EOC
"),
  ("turkey", "##
## Turkey!
##
$the_cow = <<EOC;
  $thoughts                                  ,+*^^*+___+++_
   $thoughts                           ,*^^^^              )
    $thoughts                       _+*                     ^**+_
     $thoughts                    +^       _ _++*+_+++_,         )
" ++ turkeyBody ++ "
                      ^^^ ^^ ^^^ ^
EOC
"),
  ("turtle", r"##
## A mysterious turtle...
##
$the_cow = <<EOC;
    $thoughts                                  ___-------___
     $thoughts                             _-~~             ~~-_
      $thoughts                         _-~                    /~-_
             /^\\__/^\\         /~  \\                   /    \\
           /|  O|| O|        /      \\_______________/        \\
          | |___||__|      /       /                \\          \\
          |          \\    /      /                    \\          \\
          |   (_______) /______/                        \\_________ \\
          |         / /         \\                      /            \\
           \\         \\^\\\\         \\                  /               \\     /
             \\         ||           \\______________/      _-_       //\\__//
               \\       ||------_-~~-_ ------------- \\ --/~   ~\\    || __/
                 ~-----||====/~     |==================|       |/~~~~~
                  (_(__/  ./     /                    \\_\\      \\.
                         (_(___/                         \\_____)_)
EOC
"),
  ("tux", r"##
## TuX
## (c) pborys@p-soft.silesia.linux.org.pl 
##
$the_cow = <<EOC;
   $thoughts
    $thoughts
        .--.
       |o_o |
       |:_/ |
      //   \\ \\
     (|     | )
    /'\\_   _/`\\
    \\___)=(___/

EOC
"),
  ("udder", r#"##
## The cow from a file called cow-n-horn, artist unknown.
##
$other_eye = chop($eyes);
$eyes .= " $other_eye";
$the_cow = <<EOC;
  $thoughts
   $thoughts    (__)               
        $eyes\\               
       ('') \\---------     
        $tongue\\           \\    
           |          |\\   
           ||---(  )_|| *  
           ||    UU  ||    
           ==        ==    
EOC
"#),
  ("vader-koala", r"##
## Another canonical koala?
##
$the_cow = <<EOC;
   $thoughts
    $thoughts        .
     .---.  //
    Y|o o|Y// 
   /_(i=i)K/ 
   ~()~*~()~  
    (_)-(_)   

     Darth 
     Vader    
     koala        
EOC
"),
  ("vader", r"##
## Cowth Vader, from geordan@csua.berkeley.edu
##
$the_cow = <<EOC;
        $thoughts    ,-^-.
         $thoughts   !oYo!
          $thoughts /./=\\.\\______
               ##        )\\/\\
                ||-----w||
                ||      ||

               Cowth Vader
EOC
"),
  ("www", r"##
## A cow wadvertising the World Wide Web, from lim@csua.berkeley.edu
##
$the_cow = <<EOC;
        $thoughts   ^__^
         $thoughts  ($eyes)\\_______
            (__)\\       )\\/\\
             $tongue ||--WWW |
                ||     ||
EOC
")]

end TaskShell.Cow
